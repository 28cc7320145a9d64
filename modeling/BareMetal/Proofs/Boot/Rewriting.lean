import BareMetal.Boot.Document
import BareMetal.Proofs.Yaml.Written

/-!
# Rewriting boot documents

A boot document is read, its management network is set, and it is written again. What it says at keys
that are not known is carried along by the dictionaries of further keys, of which there are three: at
the top, in the system and in the installer. Networks and their interfaces have none.
-/

namespace BareMetal.Boot

open Yaml (Value Read Reads Reader Node ReadsBack Step latest?)

variable {α : Type} {y : Yaml.Document} {room : Nat} {n m : Node} {key : String}

/-! ## Known keys -/

/-- The keys that are known at the top. -/
def documentKeys : List String := ["server_url", "token", "os", "install"]

/-- The keys that are known in the system. -/
def systemKeys : List String := ["hostname", "password"]

/-- The keys that are known in the installer. -/
def installerKeys : List String := ["automatic", "mode", "tty", "device", "iso_url", "networks"]

/-- The keys that are known in a network. -/
def networkKeys : List String := ["interfaces", "method", "default_route", "bond_options"]

/-- A path to a key that is not known, outside of the management network. -/
inductive Unmodelled : List Step → Prop
  | top (key : String) (hkey : key ∉ documentKeys) : Unmodelled [.field key]
  | system (key : String) (hkey : key ∉ systemKeys) : Unmodelled [.field "os", .field key]
  | installer (key : String) (hkey : key ∉ installerKeys) :
    Unmodelled [.field "install", .field key]
  | network (name key : String) (hname : name ≠ managementNetwork) (hkey : key ∉ networkKeys) :
    Unmodelled [.field "install", .field "networks", .field name, .field key]
  | interface (name : String) (i : Nat) (key : String) (hname : name ≠ managementNetwork)
    (hkey : key ≠ "hwAddr") :
    Unmodelled [.field "install", .field "networks", .field name, .field "interfaces", .item i,
      .field key]

/-- The path leads into the networks. -/
def InNetworks (p : List Step) : Prop := [.field "install", .field "networks"] <+: p

/-! ## Reading -/

theorem reads_of_fieldOr {ps : List (String × Node)} {default a : α} {r : Node → Read α}
    (h : Reads (Reading.fieldOr ps key default r) a) (hm : latest? key ps = some m) :
    Reads (r m) a := by
  obtain ⟨a?, ha, h⟩ := h.of_bind
  obtain ⟨b, rfl, hb⟩ := ha.of_field? hm
  exact h.of_pure ▸ hb

/-- At a key that is not known stands what the node at this key denotes. -/
theorem extra_of_reads {known : List String} {ps : List (String × Node)} {extra : Dict Value}
    (h : Reads (Reading.extra known ps (Reader.value false y room)) extra)
    (hroom : room ≤ Reader.depthLimit) (hkey : key ∉ known) (hm : latest? key ps = some m) :
    ∃ v, extra.get? key = some v ∧ y.valueOf m = .ok v := by
  obtain ⟨es, hes, h⟩ := h.of_bind
  have hpairs : List.Forall₂ (fun p e => e.1 = p.1 ∧ y.valueOf p.2 = .ok e.2)
      (ps.filter fun p => !known.contains p.1) es := by
    refine hes.of_mapM.imp fun p e he => ?_
    obtain ⟨v, hv, he⟩ := he.of_bind
    rw [he.of_pure]
    exact ⟨rfl, Yaml.valueOf_of_reads hv hroom⟩
  have hrel := Yaml.latest?_forall₂ (R := fun m v => y.valueOf m = .ok v) key hpairs
  rw [Yaml.latest?_filter (by rintro e - rfl; simpa using hkey), hm] at hrel
  rw [h.of_pure, Yaml.get?_ofList]
  generalize latest? key es = found at hrel ⊢
  cases hrel with
  | some hv => exact ⟨_, rfl, hv⟩

section Records

variable {b : Document} {s : System} {i : Installer}

theorem document_extra (h : Reads (Reading.document y room n) b) (hroom : room ≤ Reader.depthLimit)
    (hkey : key ∉ documentKeys) (hm : latest? key (y.fields n) = some m) :
    ∃ v, b.extra.get? key = some v ∧ y.valueOf m = .ok v := by
  obtain ⟨room', hle, h⟩ := h.of_pairs
  obtain ⟨url, -, h⟩ := h.of_bind
  obtain ⟨token, -, h⟩ := h.of_bind
  obtain ⟨system, -, h⟩ := h.of_bind
  obtain ⟨installer, -, h⟩ := h.of_bind
  obtain ⟨extra, hextra, h⟩ := h.of_bind
  exact h.of_pure ▸ extra_of_reads hextra (Nat.le_trans hle hroom) hkey hm

theorem system_extra (h : Reads (Reading.system y room n) s) (hroom : room ≤ Reader.depthLimit)
    (hkey : key ∉ systemKeys) (hm : latest? key (y.fields n) = some m) :
    ∃ v, s.extra.get? key = some v ∧ y.valueOf m = .ok v := by
  obtain ⟨room', hle, h⟩ := h.of_pairs
  obtain ⟨hostname, -, h⟩ := h.of_bind
  obtain ⟨password, -, h⟩ := h.of_bind
  obtain ⟨extra, hextra, h⟩ := h.of_bind
  exact h.of_pure ▸ extra_of_reads hextra (Nat.le_trans hle hroom) hkey hm

theorem installer_extra (h : Reads (Reading.installer y room n) i) (hroom : room ≤ Reader.depthLimit)
    (hkey : key ∉ installerKeys) (hm : latest? key (y.fields n) = some m) :
    ∃ v, i.extra.get? key = some v ∧ y.valueOf m = .ok v := by
  obtain ⟨room', hle, h⟩ := h.of_pairs
  obtain ⟨automatic, -, h⟩ := h.of_bind
  obtain ⟨mode, -, h⟩ := h.of_bind
  obtain ⟨tty, -, h⟩ := h.of_bind
  obtain ⟨device, -, h⟩ := h.of_bind
  obtain ⟨isoUrl, -, h⟩ := h.of_bind
  obtain ⟨networks, -, h⟩ := h.of_bind
  obtain ⟨extra, hextra, h⟩ := h.of_bind
  exact h.of_pure ▸ extra_of_reads hextra (Nat.le_trans hle hroom) hkey hm

/-- The system and the installer are read off the nodes at their keys. -/
theorem reads_parts (h : Reads (Reading.document y room n) b) :
    ∃ room' ≤ room, (∀ m, latest? "os" (y.fields n) = some m →
        Reads (Reading.system y room' m) b.system) ∧
      ∀ m, latest? "install" (y.fields n) = some m →
        Reads (Reading.installer y room' m) b.installer := by
  obtain ⟨room', hle, h⟩ := h.of_pairs
  obtain ⟨url, -, h⟩ := h.of_bind
  obtain ⟨token, -, h⟩ := h.of_bind
  obtain ⟨system, hsystem, h⟩ := h.of_bind
  obtain ⟨installer, hinstaller, h⟩ := h.of_bind
  obtain ⟨extra, -, h⟩ := h.of_bind
  rw [h.of_pure]
  exact ⟨room', hle, fun m hm => reads_of_fieldOr hsystem hm,
    fun m hm => reads_of_fieldOr hinstaller hm⟩

end Records

/-! ## Writing -/

namespace Writing

theorem get?_text? {k key : String} (s : String) (h : k ≠ key) :
    (Value.map (text? k s)).get? key = none := by
  unfold text?
  split
  · rfl
  · simp [h]

theorem get?_dict (write : α → Value) (d : Dict α) (key : String) :
    (Value.map (dict write d)).get? key = (d.get? key).map write := by
  rw [dict, Dict.get?]
  induction d.entries with
  | nil => rfl
  | cons e es ih =>
    rw [List.map_cons, Value.get?_map_cons, ih, Dict.Entries.get?]
    by_cases h : e.1 = key
    · simp [h]
    · simp [h, Ne.symm h]

theorem get?_dict? (k key : String) (write : α → Value) (d : Dict α) :
    (Value.map (dict? k write d)).get? key =
      if k = key ∧ d.isEmpty = false then some (.map (dict write d)) else none := by
  unfold dict?
  split
  · simp [*]
  · simp [*]

theorem get?_system (s : System) (hkey : key ∉ systemKeys) :
    (system s).get? key = s.extra.get? key := by
  simp only [systemKeys, List.mem_cons, List.not_mem_nil, or_false, not_or] at hkey
  simp [system, get?_text?, get?_dict, Ne.symm hkey.1, Ne.symm hkey.2]

theorem get?_installer (i : Installer) (hkey : key ∉ installerKeys) :
    (installer i).get? key = i.extra.get? key := by
  simp only [installerKeys, List.mem_cons, List.not_mem_nil, or_false, not_or, ← ne_eq] at hkey
  obtain ⟨hautomatic, hmode, htty, hdevice, hiso, hnetworks⟩ := hkey
  simp [installer, get?_text?, get?_dict, get?_dict?, hautomatic.symm, hmode.symm, htty.symm,
    hdevice.symm, hiso.symm, hnetworks.symm]

theorem get?_document (d : Document) (hkey : key ∉ documentKeys) :
    (document d).get? key = d.extra.get? key := by
  simp only [documentKeys, List.mem_cons, List.not_mem_nil, or_false, not_or, ← ne_eq] at hkey
  obtain ⟨hurl, htoken, hos, hinstall⟩ := hkey
  simp [document, get?_text?, get?_dict, hurl.symm, htoken.symm, hos.symm, hinstall.symm]

theorem document_os (d : Document) : (document d).get? "os" = some (system d.system) := by
  simp [document, get?_text?]

theorem document_install (d : Document) :
    (document d).get? "install" = some (installer d.installer) := by
  simp [document, get?_text?]

theorem installer_networks {i : Installer} (h : i.networks.isEmpty = false) :
    (installer i).get? "networks" = some (.map (dict network i.networks)) := by
  simp [installer, get?_text?, get?_dict?, h]

/-- A network says nothing at keys that are not known. -/
theorem get?_network (n : Network) (hkey : key ∉ networkKeys) : (network n).get? key = none := by
  simp only [networkKeys, List.mem_cons, List.not_mem_nil, or_false, not_or, ← ne_eq] at hkey
  obtain ⟨hinterfaces, hmethod, hroute, hbond⟩ := hkey
  simp [network, get?_dict?, hinterfaces.symm, hmethod.symm, hroute.symm, hbond.symm]

theorem network_interfaces (n : Network) : (network n).get? "interfaces" =
    some (.seq (n.interfaces.map fun mac => .map [(.str "hwAddr", .str mac)])) := by
  simp [network]

end Writing

/-! ## What a rewrite carries -/

theorem networks_withManagement (d : Document) (macs : List String) (options : Dict String) :
    (d.withManagement macs options).installer.networks.isEmpty = false :=
  Dict.isEmpty_insert ..

/-- The document that the text holds after the marker, if there is any. -/
def content? (text : String) : Option Yaml.Document :=
  if (Text.trim (body text)).isEmpty then none else (Yaml.Document.ofText (body text)).toOption

/-- What is read of a document that was written. -/
theorem body_render (d : Document) : body d.render = "\n" ++ (Writing.document d).render := by
  have hrender : d.render = marker ++ ("\n" ++ (Writing.document d).render) := String.append_assoc ..
  have hstart : d.render.startsWith marker = true := by simp [hrender]
  rw [body, if_pos hstart, hrender, String.toList_append, String.length, List.drop_left,
    String.ofList_toList]

/-- At the end of the path, and everywhere beyond, the value is what the document says there. -/
def Carried (y : Yaml.Document) (w : Value) (p : List Step) : Prop :=
  ∃ n v, y.at? p = some n ∧ y.valueOf n = .ok v ∧ ∀ rest, w.at? (p ++ rest) = v.at? rest

theorem carried_of_at? {w v : Value} {p : List Step} (hn : y.at? p = some n)
    (hv : y.valueOf n = .ok v) (hw : w.at? p = some v) : Carried y w p :=
  ⟨n, v, hn, hv, fun rest => by rw [Value.at?_append, hw, Option.bind_some]⟩

theorem not_carried_of_at? {w : Value} {p : List Step} (hw : w.at? p = none) : ¬Carried y w p := by
  rintro ⟨n, v, -, -, hrest⟩
  have hv := hrest []
  rw [List.append_nil, hw] at hv
  cases hv

theorem reads_of_parse {text : String} {b : Document} (hparse : Document.parse text = .ok b)
    (hy : content? text = some y) (hn : y.root = some n) :
    Reads (Reading.document y Reader.depthLimit n) b := by
  unfold content? at hy
  unfold Document.parse at hparse
  split at hy
  · cases hy
  · next hblank =>
    dsimp only at hparse
    have hbind : (Except.ok y >>= Reading.document.run {}) = Reading.document.run {} y := rfl
    rw [if_neg hblank, ok_of_toOption hy, hbind] at hparse
    cases hrun : Reading.document.run {} y with
    | error f => rw [hrun] at hparse; cases hparse
    | ok d =>
      rw [hrun] at hparse
      cases hparse
      exact Yaml.reads_of_run hrun hn

/-- What is not known outside of the networks is written as the document says it. -/
theorem at?_of_not_inNetworks {b : Document} (b' : Document) {p : List Step} (hp : Unmodelled p)
    (hout : ¬InNetworks p) (hread : Reads (Reading.document y Reader.depthLimit n) b)
    (hm : y.walk n p = some m) (hextra : b'.extra = b.extra) (hsystem : b'.system = b.system)
    (hinstaller : b'.installer.extra = b.installer.extra) :
    ∃ v, y.valueOf m = .ok v ∧ (Writing.document b').at? p = some v := by
  obtain ⟨room, hroom, hos, hinstall⟩ := reads_parts hread
  cases hp with
  | top key hkey =>
    rw [Yaml.Document.walk_singleton] at hm
    obtain ⟨v, hv, hval⟩ := document_extra hread (Nat.le_refl _) hkey hm
    refine ⟨v, hval, ?_⟩
    rw [Value.at?_field, Writing.get?_document b' hkey, hextra, hv]
    rfl
  | system key hkey =>
    rw [Yaml.Document.walk_field] at hm
    obtain ⟨os, hos', hm⟩ := Option.bind_eq_some_iff.1 hm
    rw [Yaml.Document.walk_singleton] at hm
    obtain ⟨v, hv, hval⟩ := system_extra (hos os hos') hroom hkey hm
    refine ⟨v, hval, ?_⟩
    rw [Value.at?_field, Writing.document_os, Option.bind_some, Value.at?_field,
      Writing.get?_system b'.system hkey, hsystem, hv]
    rfl
  | installer key hkey =>
    rw [Yaml.Document.walk_field] at hm
    obtain ⟨install, hinstall', hm⟩ := Option.bind_eq_some_iff.1 hm
    rw [Yaml.Document.walk_singleton] at hm
    obtain ⟨v, hv, hval⟩ := installer_extra (hinstall install hinstall') hroom hkey hm
    refine ⟨v, hval, ?_⟩
    rw [Value.at?_field, Writing.document_install, Option.bind_some, Value.at?_field,
      Writing.get?_installer b'.installer hkey, hinstaller, hv]
    rfl
  -- These two lead into the networks.
  | network name key => exact absurd ⟨[.field name, .field key], rfl⟩ hout
  | interface name i key =>
    exact absurd ⟨[.field name, .field "interfaces", .item i, .field key], rfl⟩ hout

/-- The networks that are written say nothing at keys that are not known. -/
theorem at?_of_inNetworks {b : Document} (hnets : b.installer.networks.isEmpty = false)
    {p : List Step} (hp : Unmodelled p) (hin : InNetworks p) : (Writing.document b).at? p = none := by
  have hnetwork (name : String) (rest : List Step) :
      (Writing.document b).at? (.field "install" :: .field "networks" :: .field name :: rest) =
        (b.installer.networks.get? name).bind fun net => (Writing.network net).at? rest := by
    rw [Value.at?_field, Writing.document_install, Option.bind_some, Value.at?_field,
      Writing.installer_networks hnets, Option.bind_some, Value.at?_field, Writing.get?_dict,
      Option.bind_map]
    rfl
  cases hp with
  | network name key hname hkey =>
    rw [hnetwork, Option.bind_eq_none_iff]
    intro net hnet
    rw [Value.at?_field, Writing.get?_network net hkey]
    rfl
  | interface name i key hname hkey =>
    rw [hnetwork, Option.bind_eq_none_iff]
    intro net hnet
    rw [Value.at?_field, Writing.network_interfaces, Option.bind_some, Value.at?_item,
      Option.bind_eq_none_iff]
    intro v hv
    obtain ⟨mac, -, rfl⟩ := List.mem_map.1 (List.mem_of_getElem? hv)
    rw [Value.at?_field, Value.get?_map_cons, if_neg (Ne.symm hkey)]
    rfl
  -- The others do not lead into the networks.
  | top key => simp [InNetworks] at hin
  | system key => simp [InNetworks] at hin
  | installer key hkey =>
    have hnetworks : key = "networks" := by simpa [InNetworks, eq_comm] using hin
    exact absurd (hnetworks ▸ hkey) (by decide)

/-- A document that is read, given a management network and written again still says what it said at
a path that is not known just if the path does not lead into the networks, as long as the text that is
written reads back as the tree that it was written from. -/
theorem carried_iff_not_inNetworks {text : String} {b : Document} {p : List Step} {n : Node}
    (macs : List String) (options : Dict String)
    (hparse : Document.parse text = .ok b) (hy : content? text = some y)
    (hp : Unmodelled p) (hn : y.at? p = some n)
    (hback : Value.ofText (body (b.withManagement macs options).render) =
      .ok (Writing.document (b.withManagement macs options))) :
    (∃ w, Value.ofText (body (b.withManagement macs options).render) = .ok w ∧ Carried y w p) ↔
      ¬InNetworks p := by
  obtain ⟨root, hroot, hwalk⟩ := Option.bind_eq_some_iff.1 hn
  constructor
  -- Networks are written without further keys, whatever was read.
  · rintro ⟨w, hw, hcarried⟩ hin
    rw [hback] at hw
    cases hw
    exact not_carried_of_at? (at?_of_inNetworks (networks_withManagement b macs options) hp hin)
      hcarried
  · intro hout
    obtain ⟨v, hv, hat⟩ := at?_of_not_inNetworks (b.withManagement macs options) hp hout
      (reads_of_parse hparse hy hroot) hwalk rfl rfl rfl
    exact ⟨_, hback, carried_of_at? hn hv hat⟩

/-- A document with a key that is not known in the system, and one in a network. -/
def sample : String :=
  "#cloud-config\nos:\n  ntp: a\ninstall:\n  networks:\n    lan:\n      mtu: 9000\n"

/-- The key in the system. -/
def sampleNtp : List Step := [.field "os", .field "ntp"]

/-- The key in the network. -/
def sampleMtu : List Step := [.field "install", .field "networks", .field "lan", .field "mtu"]

theorem sample_nodes : ∃ y n m, content? sample = some y ∧ y.at? sampleNtp = some n ∧
    y.at? sampleMtu = some m ∧ y.valueOf m = .ok (.int 9000) := by
  have heval : ((content? sample).any fun y => (y.at? sampleNtp).isSome && (y.at? sampleMtu).any
      fun m => (y.valueOf m).toOption.any (Value.identical (.int 9000))) = true := by
    decide +kernel
  obtain ⟨y, hy, h⟩ := (Option.any_eq_true _ _).1 heval
  obtain ⟨hn, h⟩ := Bool.and_eq_true_iff.1 h
  obtain ⟨n, hn⟩ := Option.isSome_iff_exists.1 hn
  obtain ⟨m, hm, h⟩ := (Option.any_eq_true _ _).1 h
  obtain ⟨v, hv, h⟩ := (Option.any_eq_true _ _).1 h
  exact ⟨y, n, m, hy, hn, hm, Value.eq_of_identical h ▸ ok_of_toOption hv⟩

/-- What is written for the document after its management network was set. -/
def sampleTree : Value :=
  .map [(.str "os", .map [(.str "ntp", .str "a")]),
    (.str "install", .map [(.str "automatic", .bool false), (.str "networks", .map [
      (.str "harvester-mgmt", .map [(.str "interfaces", .seq [.map [(.str "hwAddr", .str "aa")]]),
        (.str "method", .str "dhcp"), (.str "default_route", .bool true)]),
      (.str "lan", .map [(.str "interfaces", .seq []), (.str "method", .str ""),
        (.str "default_route", .bool false)])])])]

/-- The text of `sampleTree`. -/
def sampleText : String :=
  "os:\n  ntp: a\ninstall:\n  automatic: false\n  networks:\n    harvester-mgmt:\n" ++
    "      interfaces:\n      - hwAddr: aa\n      method: dhcp\n      default_route: true\n" ++
    "    lan:\n      interfaces: []\n      method: ''\n      default_route: false\n"

theorem sample_written : ∃ b, Document.parse sample = .ok b ∧
    Writing.document (b.withManagement ["aa"] ∅) = sampleTree := by
  have heval : ((Document.parse sample).toOption.any fun b =>
      Value.identical (Writing.document (b.withManagement ["aa"] ∅)) sampleTree) = true := by
    decide +kernel
  obtain ⟨b, hb, h⟩ := (Option.any_eq_true _ _).1 heval
  exact ⟨b, ok_of_toOption hb, Value.eq_of_identical h⟩

theorem render_sampleTree : sampleTree.render = sampleText := by
  decide +kernel

theorem readsBack_sampleText : ReadsBack ("\n" ++ sampleText) sampleTree :=
  render_sampleTree ▸ Yaml.readsBack_render rfl (by decide +kernel)

theorem sample_readsBack : ∃ b, Document.parse sample = .ok b ∧
    Value.ofText (body (b.withManagement ["aa"] ∅).render) =
      .ok (Writing.document (b.withManagement ["aa"] ∅)) := by
  obtain ⟨b, hb, hwritten⟩ := sample_written
  refine ⟨b, hb, ?_⟩
  rw [body_render, hwritten, render_sampleTree]
  exact readsBack_sampleText.ofText

theorem carried_sample : ∃ b y n w, Document.parse sample = .ok b ∧ content? sample = some y ∧
    Unmodelled sampleNtp ∧ y.at? sampleNtp = some n ∧
    Value.ofText (body (b.withManagement ["aa"] ∅).render) = .ok w ∧ Carried y w sampleNtp := by
  obtain ⟨y, n, -, hy, hn, -, -⟩ := sample_nodes
  obtain ⟨b, hb, hback⟩ := sample_readsBack
  have hp : Unmodelled sampleNtp := .system "ntp" (by decide)
  obtain ⟨w, hw, hcarried⟩ :=
    (carried_iff_not_inNetworks ["aa"] ∅ hb hy hp hn hback).2 (by simp [InNetworks, sampleNtp])
  exact ⟨b, y, n, w, hb, hy, hp, hn, hw, hcarried⟩

/-- The key in the network is lost, although the text that is written reads back. -/
theorem lost_sample : ∃ b y n w, Document.parse sample = .ok b ∧ content? sample = some y ∧
    Unmodelled sampleMtu ∧ y.at? sampleMtu = some n ∧ y.valueOf n = .ok (.int 9000) ∧
    Value.ofText (body (b.withManagement ["aa"] ∅).render) = .ok w ∧
    w = Writing.document (b.withManagement ["aa"] ∅) ∧ w.at? sampleMtu = none := by
  obtain ⟨y, -, m, hy, -, hm, hv⟩ := sample_nodes
  obtain ⟨b, hb, hback⟩ := sample_readsBack
  have hp : Unmodelled sampleMtu := .network "lan" "mtu" (by decide) (by decide)
  exact ⟨b, y, m, _, hb, hy, hp, hm, hv, hback, rfl,
    at?_of_inNetworks (networks_withManagement b ["aa"] ∅) hp ⟨_, rfl⟩⟩

end BareMetal.Boot
