import BareMetal.Failure
import BareMetal.Text.Blank
import BareMetal.Yaml.Block

/-!
# Boot documents

What the installer of a machine reads when it boots: where and with which token to join the
cluster, and how to set up the system, the disk and the networks. A document is a marker line with
YAML after it. Whatever this module does not know is carried along when a document is changed.
-/

namespace BareMetal

open Yaml (Value Read Reader Node)

namespace Boot

/-- A network of the installed system. -/
structure Network where
  /-- The hardware addresses of the member interfaces. -/
  interfaces : List String := []
  method : String := ""
  /-- Whether the network has the default route. -/
  defaultRoute : Bool := false
  bondOptions : Dict String := ∅
deriving DecidableEq, Inhabited

/-- The operating system. -/
structure System where
  hostname : String := ""
  password : String := ""
  extra : Dict Value := ∅
deriving Inhabited

/-- The installer. -/
structure Installer where
  /-- Whether nobody is asked. -/
  automatic : Bool := false
  mode : String := ""
  tty : String := ""
  device : String := ""
  isoUrl : String := ""
  networks : Dict Network := ∅
  extra : Dict Value := ∅
deriving Inhabited

/-- A boot document. -/
structure Document where
  serverUrl : String := ""
  token : String := ""
  system : System := {}
  installer : Installer := {}
  extra : Dict Value := ∅
deriving Inhabited

/-! ## Making and changing documents -/

/-- The line that every boot document starts with. -/
def marker : String := "#cloud-config"

/-- The network that is set up for management. -/
def managementNetwork : String := "harvester-mgmt"

/-- The address at which a machine registers, given where the cluster is reached. -/
def joinUrl (address : String) : String := s!"https://{address}:8443"

namespace Document

/-- A document that joins a fresh machine to the cluster. -/
def join (address token hostname password isoUrl : String) : Document where
  serverUrl := joinUrl address
  token := token
  system := { hostname := hostname, password := password }
  installer := {
    automatic := true
    mode := "join"
    tty := "ttyS1,115200n8"
    device := "/dev/sda"
    isoUrl := isoUrl }

/-- The document with a management network of the interfaces with the given addresses. It asks for
its address and has the default route. -/
def withManagement (d : Document) (macs : List String) (bondOptions : Dict String) : Document :=
  let network : Network := ⟨macs, "dhcp", true, bondOptions⟩
  { d with installer := { d.installer with
      networks := d.installer.networks.insert managementNetwork network } }

/-! ## Equality -/

/-- Whether two dictionaries have the same values. -/
def sameExtra (a b : Dict Value) : Bool :=
  a.keys == b.keys && (a.entries.zip b.entries).all fun (x, y) => x.2 == y.2

/-- Whether two documents say the same. -/
def same (a b : Document) : Bool :=
  a.serverUrl == b.serverUrl && a.token == b.token &&
    a.system.hostname == b.system.hostname && a.system.password == b.system.password &&
    sameExtra a.system.extra b.system.extra &&
    a.installer.automatic == b.installer.automatic && a.installer.mode == b.installer.mode &&
    a.installer.tty == b.installer.tty && a.installer.device == b.installer.device &&
    a.installer.isoUrl == b.installer.isoUrl &&
    a.installer.networks = b.installer.networks &&
    sameExtra a.installer.extra b.installer.extra && sameExtra a.extra b.extra

end Document

/-! ## Reading -/

namespace Reading

variable {α : Type}

/-- The value at a key, or a default. -/
def fieldOr (ps : List (String × Node)) (key : String) (default : α) (r : Node → Read α) : Read α := do
  return (← Reader.field? ps key r).getD default

/-- The values at the keys that are not known. They have no tags of their own, and of two with one
key the later counts. -/
def extra (known : List String) (ps : List (String × Node)) (r : Node → Read Value) :
    Read (Dict Value) := do
  let others := ps.filter fun p => !known.contains p.1
  return Dict.ofList (← others.mapM fun p => do return (p.1, ← r p.2))

/-- The address of an interface. -/
def interface : Reader String := fun d => Reader.pairs (fun room ps => do
  match ← Reader.field? ps "hwAddr" (Reader.text d room) with
  | some mac => return mac
  | none => throw (.missing "hwAddr")) d

/-- A network. -/
def network : Reader Network := fun d => Reader.pairs (fun room ps => do
  return {
    interfaces := ← fieldOr ps "interfaces" [] (Reader.list interface d room)
    method := ← fieldOr ps "method" "" (Reader.text d room)
    defaultRoute := ← fieldOr ps "default_route" false (Reader.flag d room)
    bondOptions := ← fieldOr ps "bond_options" ∅ (Reader.dict Reader.text d room) }) d

/-- The operating system. -/
def system : Reader System := fun d => Reader.pairs (fun room ps => do
  return {
    hostname := ← fieldOr ps "hostname" "" (Reader.text d room)
    password := ← fieldOr ps "password" "" (Reader.text d room)
    extra := ← extra ["hostname", "password"] ps (Reader.value false d room) }) d

/-- The installer. -/
def installer : Reader Installer := fun d => Reader.pairs (fun room ps => do
  let text (key : String) := fieldOr ps key "" (Reader.text d room)
  return {
    automatic := ← fieldOr ps "automatic" false (Reader.flag d room)
    mode := ← text "mode"
    tty := ← text "tty"
    device := ← text "device"
    isoUrl := ← text "iso_url"
    networks := ← fieldOr ps "networks" ∅ (Reader.dict network d room)
    extra := ← extra ["automatic", "mode", "tty", "device", "iso_url", "networks"] ps
      (Reader.value false d room) }) d

/-- A boot document. -/
def document : Reader Document := fun d => Reader.pairs (fun room ps => do
  return {
    serverUrl := ← fieldOr ps "server_url" "" (Reader.text d room)
    token := ← fieldOr ps "token" "" (Reader.text d room)
    system := ← fieldOr ps "os" {} (system d room)
    installer := ← fieldOr ps "install" {} (installer d room)
    extra := ← extra ["server_url", "token", "os", "install"] ps (Reader.value false d room) }) d

end Reading

/-- The text after the marker, if it starts with the marker. -/
def body (text : String) : String :=
  if text.startsWith marker then .ofList (text.toList.drop marker.length) else text

/-- Why a boot document cannot be read. -/
def failure (f : Yaml.Fault) : Failure := .serialization f.message (some "cloud-config")

/-- Reads a boot document with or without the marker. A blank text says nothing. -/
def Document.parse (text : String) : Except Failure Document :=
  let body := body text
  if (Text.trim body).isEmpty then .ok {}
  else
    match Yaml.Document.ofText body >>= Reading.document.run {} with
    | .ok d => .ok d
    | .error f => .error (failure f)

/-! ## Writing -/

namespace Writing

/-- A text that is left out if it is empty. -/
def text? (key s : String) : List (Value × Value) := if s.isEmpty then [] else [(.str key, .str s)]

/-- A dictionary as a mapping. -/
def dict {α : Type} (write : α → Value) (d : Dict α) : List (Value × Value) :=
  d.entries.map fun e => (.str e.1, write e.2)

/-- A dictionary that is left out if it is empty. -/
def dict? {α : Type} (key : String) (write : α → Value) (d : Dict α) : List (Value × Value) :=
  if d.isEmpty then [] else [(.str key, .map (dict write d))]

/-- A network. -/
def network (n : Network) : Value :=
  .map ([(.str "interfaces", .seq (n.interfaces.map fun mac => .map [(.str "hwAddr", .str mac)])),
    (.str "method", .str n.method), (.str "default_route", .bool n.defaultRoute)] ++
    dict? "bond_options" .str n.bondOptions)

/-- The operating system. -/
def system (s : System) : Value :=
  .map (text? "hostname" s.hostname ++ text? "password" s.password ++ dict id s.extra)

/-- The installer. -/
def installer (i : Installer) : Value :=
  .map ((.str "automatic", .bool i.automatic) :: text? "mode" i.mode ++ text? "tty" i.tty ++
    text? "device" i.device ++ text? "iso_url" i.isoUrl ++ dict? "networks" network i.networks ++
    dict id i.extra)

/-- A boot document. -/
def document (d : Document) : Value :=
  .map (text? "server_url" d.serverUrl ++ text? "token" d.token ++
    [(.str "os", system d.system), (.str "install", installer d.installer)] ++ dict id d.extra)

end Writing

/-- The document as text, with the marker. -/
def Document.render (d : Document) : String := marker ++ "\n" ++ (Writing.document d).render

/-! ## Bootstrap documents -/

/-- The join token in the bootstrap document of a member, or why there is none. -/
def tokenOf (text : String) : Except String String :=
  match Value.ofText text with
  | .error f => .error s!"unable to parse bootstrap document: {f.message}"
  | .ok v =>
    match ((v.get? "token").bind Value.asText?).filter (· ≠ "") with
    | some token => .ok token
    | none => .error "no token found in bootstrap document"

end Boot

end BareMetal
