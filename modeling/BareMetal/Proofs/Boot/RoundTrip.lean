import BareMetal.Proofs.Boot.Rewriting
import BareMetal.Proofs.Yaml.Written

/-!
# Reading back boot documents

What is written of a boot document is read as the same document, if its dictionaries of further keys have
no known keys (`Document.Tidy`). Documents that were read are tidy, those that join a machine are, and
a management network changes nothing about that.

A member that is left out when it is written has its default (`Gives`), so that each reader undoes its
writer member by member.
-/

namespace BareMetal.Boot

open Yaml (Value Read Reads Reader Node ReadsBack Shown TextKeys Undoes latest?)

variable {α : Type} {y : Yaml.Document} {room : Nat} {n : Node} {v : Value} {key : String}

/-! ## Members -/

/-- The value gives `a` at the key, or nothing if `a` is the default. -/
def Gives (v : Value) (key : String) (write : α → Value) (default a : α) : Prop :=
  v.get? key = some (write a) ∨ v.get? key = none ∧ a = default

/-- None of the keys is in the dictionary. -/
def Free (known : List String) (extra : Dict Value) : Prop := ∀ key ∈ known, extra.get? key = none

section Shown

variable {ps : List (String × Node)}

theorem fieldOr_of_gives {r : Reader α} {write : α → Value} {default a : α}
    (hps : Shown y room ps v) (hr : Undoes r write a) (h : Gives v key write default a) :
    Reading.fieldOr ps key default (r y room) = pure a := by
  rw [Reading.fieldOr]
  rcases h with hkey | ⟨hkey, rfl⟩
  · rw [hps.field?_of_some hkey hr, pure_bind, Option.getD_some]
  · rw [hps.field?_of_none hkey, pure_bind, Option.getD_none]

theorem extra_of_free {known : List String} {extra : Dict Value} (hps : Shown y room ps v)
    (hfree : Free known extra) (h : ∀ key ∉ known, v.get? key = extra.get? key) :
    Reading.extra known ps (Reader.value false y room) = pure extra := by
  refine hps.ofList_filter (fun key => !known.contains key) (fun key hkey => ?_)
    (fun key w hw => ?_) fun key w _ => Yaml.undoes_value w
  · rw [h key (by simpa using hkey), Option.map_id]
    rfl
  · have hkey : key ∉ known := fun hkey => by
      rw [hfree key hkey] at hw
      cases hw
    simpa using hkey

end Shown

/-! ## Writing -/

namespace Writing

theorem get?_text?_self (key s : String) :
    (Value.map (text? key s)).get? key = if s.isEmpty then none else some (.str s) := by
  unfold text?
  split <;> simp

/-- A text that is left out if it is empty. -/
theorem gives_text {v : Value} {key s : String}
    (h : v.get? key = if s.isEmpty then none else some (.str s)) : Gives v key .str "" s := by
  rw [Gives, h]
  by_cases hs : s.isEmpty
  · exact .inr ⟨if_pos hs, String.isEmpty_iff.1 hs⟩
  · exact .inl (if_neg hs)

/-- A dictionary that is left out if it is empty. -/
theorem gives_dict {v : Value} {key : String} {write : α → Value} {d : Dict α}
    (h : v.get? key = if d.isEmpty = false then some (.map (dict write d)) else none) :
    Gives v key (fun d => .map (dict write d)) ∅ d := by
  rw [Gives, h]
  cases hd : d.isEmpty with
  | false => exact .inl rfl
  | true => exact .inr ⟨rfl, Dict.ext_entries (List.isEmpty_iff.1 hd)⟩

@[simp] theorem textKeys_text? (key s : String) : TextKeys (text? key s) := by
  unfold text?
  split <;> simp

@[simp] theorem textKeys_dict (write : α → Value) (d : Dict α) : TextKeys (dict write d) := by
  intro q hq
  obtain ⟨e, -, rfl⟩ := List.mem_map.1 hq
  exact ⟨e.1, rfl⟩

@[simp] theorem textKeys_dict? (key : String) (write : α → Value) (d : Dict α) :
    TextKeys (dict? key write d) := by
  unfold dict?
  split <;> simp

end Writing

/-! ## Networks -/

theorem undoes_dict {r : Reader α} {write : α → Value} {dict : Dict α}
    (h : ∀ key a, dict.get? key = some a → Undoes r write a) :
    Undoes (Reader.dict r) (fun dict => .map (Writing.dict write dict)) dict := by
  intro y room n hn hreads
  obtain ⟨room', ps, hps, hpairs⟩ :=
    Yaml.pairs_of_reads hn hreads (Writing.textKeys_dict write dict)
  have hall := hps.ofList_filter (fun _ => true) (fun key _ => Writing.get?_dict write dict key)
    (fun _ _ _ => rfl) h
  rw [List.filter_true] at hall
  rw [Reader.dict, hpairs]
  exact hall

theorem undoes_interface (mac : String) :
    Undoes Reading.interface (fun mac => .map [(.str "hwAddr", .str mac)]) mac := by
  intro y room n hn hreads
  obtain ⟨room', ps, hps, hpairs⟩ := Yaml.pairs_of_reads hn hreads (by simp [TextKeys])
  have hmac : (Value.map [(.str "hwAddr", .str mac)]).get? "hwAddr" = some (.str mac) := by simp
  rw [Reading.interface, hpairs, hps.field?_of_some hmac (Yaml.undoes_text mac), pure_bind]

theorem undoes_network (net : Network) : Undoes Reading.network Writing.network net := by
  intro y room n hn hreads
  obtain ⟨room', ps, hps, hpairs⟩ := Yaml.pairs_of_reads hn hreads (by simp)
  have hinterfaces : Gives (Writing.network net) "interfaces"
      (fun macs => .seq (macs.map fun mac => .map [(.str "hwAddr", .str mac)])) [] net.interfaces :=
    .inl (Writing.network_interfaces net)
  have hmethod : Gives (Writing.network net) "method" .str "" net.method :=
    .inl (by simp [Writing.network])
  have hroute : Gives (Writing.network net) "default_route" .bool false net.defaultRoute :=
    .inl (by simp [Writing.network])
  have hbond : Gives (Writing.network net) "bond_options" (fun d => .map (Writing.dict .str d)) ∅
      net.bondOptions :=
    Writing.gives_dict (by simp [Writing.network, Writing.get?_dict?])
  rw [Reading.network, hpairs,
    fieldOr_of_gives hps (Yaml.undoes_list fun mac _ => undoes_interface mac) hinterfaces, pure_bind,
    fieldOr_of_gives hps (Yaml.undoes_text _) hmethod, pure_bind,
    fieldOr_of_gives hps (Yaml.undoes_flag _) hroute, pure_bind,
    fieldOr_of_gives hps (undoes_dict fun _ _ _ => Yaml.undoes_text _) hbond, pure_bind]

/-! ## Documents without known keys among the further ones -/

/-- No dictionary of further keys has a known key. -/
structure Document.Tidy (b : Document) : Prop where
  document : Free documentKeys b.extra
  system : Free systemKeys b.system.extra
  installer : Free installerKeys b.installer.extra

section Texts

variable {key text : String}

theorem system_text {s : System} (h : Free systemKeys s.extra)
    (hmem : (key, text) ∈ [("hostname", s.hostname), ("password", s.password)]) :
    Gives (Writing.system s) key .str "" text := by
  simp only [List.mem_cons, List.not_mem_nil, or_false, Prod.mk.injEq] at hmem
  have hfree : s.extra.get? key = none := h key (by
    rcases hmem with ⟨rfl, -⟩ | ⟨rfl, -⟩ <;> decide)
  refine Writing.gives_text ?_
  rcases hmem with ⟨rfl, rfl⟩ | ⟨rfl, rfl⟩ <;>
    simp [Writing.system, Writing.get?_text?_self, Writing.get?_text?, Writing.get?_dict, hfree]

theorem installer_text {i : Installer} (h : Free installerKeys i.extra)
    (hmem : (key, text) ∈
      [("mode", i.mode), ("tty", i.tty), ("device", i.device), ("iso_url", i.isoUrl)]) :
    Gives (Writing.installer i) key .str "" text := by
  simp only [List.mem_cons, List.not_mem_nil, or_false, Prod.mk.injEq] at hmem
  have hfree : i.extra.get? key = none := h key (by
    rcases hmem with ⟨rfl, -⟩ | ⟨rfl, -⟩ | ⟨rfl, -⟩ | ⟨rfl, -⟩ <;> decide)
  refine Writing.gives_text ?_
  rcases hmem with ⟨rfl, rfl⟩ | ⟨rfl, rfl⟩ | ⟨rfl, rfl⟩ | ⟨rfl, rfl⟩ <;>
    simp [Writing.installer, Writing.get?_text?_self, Writing.get?_text?, Writing.get?_dict,
      Writing.get?_dict?, hfree]

theorem document_text {b : Document} (h : Free documentKeys b.extra)
    (hmem : (key, text) ∈ [("server_url", b.serverUrl), ("token", b.token)]) :
    Gives (Writing.document b) key .str "" text := by
  simp only [List.mem_cons, List.not_mem_nil, or_false, Prod.mk.injEq] at hmem
  have hfree : b.extra.get? key = none := h key (by
    rcases hmem with ⟨rfl, -⟩ | ⟨rfl, -⟩ <;> decide)
  refine Writing.gives_text ?_
  rcases hmem with ⟨rfl, rfl⟩ | ⟨rfl, rfl⟩ <;>
    simp [Writing.document, Writing.get?_text?_self, Writing.get?_text?, Writing.get?_dict, hfree]

end Texts

theorem undoes_system {s : System} (h : Free systemKeys s.extra) :
    Undoes Reading.system Writing.system s := by
  intro y room n hn hreads
  obtain ⟨room', ps, hps, hpairs⟩ := Yaml.pairs_of_reads hn hreads (by simp)
  have hextra := extra_of_free hps h fun key hkey => Writing.get?_system s hkey
  rw [systemKeys] at hextra
  rw [Reading.system, hpairs,
    fieldOr_of_gives hps (Yaml.undoes_text s.hostname) (system_text h (by simp)), pure_bind,
    fieldOr_of_gives hps (Yaml.undoes_text s.password) (system_text h (by simp)), pure_bind,
    hextra, pure_bind]

theorem undoes_installer {i : Installer} (h : Free installerKeys i.extra) :
    Undoes Reading.installer Writing.installer i := by
  intro y room n hn hreads
  obtain ⟨room', ps, hps, hpairs⟩ := Yaml.pairs_of_reads hn hreads (by simp)
  have hautomatic : Gives (Writing.installer i) "automatic" .bool false i.automatic :=
    .inl (by simp [Writing.installer])
  have hnetworks : Gives (Writing.installer i) "networks"
      (fun d => .map (Writing.dict Writing.network d)) ∅ i.networks :=
    Writing.gives_dict (by
      simp [Writing.installer, Writing.get?_text?, Writing.get?_dict, Writing.get?_dict?,
        h "networks" (by decide)])
  have hextra := extra_of_free hps h fun key hkey => Writing.get?_installer i hkey
  rw [installerKeys] at hextra
  rw [Reading.installer, hpairs]
  dsimp only
  rw [fieldOr_of_gives hps (Yaml.undoes_flag i.automatic) hautomatic, pure_bind,
    fieldOr_of_gives hps (Yaml.undoes_text i.mode) (installer_text h (by simp)), pure_bind,
    fieldOr_of_gives hps (Yaml.undoes_text i.tty) (installer_text h (by simp)), pure_bind,
    fieldOr_of_gives hps (Yaml.undoes_text i.device) (installer_text h (by simp)), pure_bind,
    fieldOr_of_gives hps (Yaml.undoes_text i.isoUrl) (installer_text h (by simp)), pure_bind,
    fieldOr_of_gives hps (undoes_dict fun _ net _ => undoes_network net) hnetworks, pure_bind,
    hextra, pure_bind]

theorem undoes_document {b : Document} (h : b.Tidy) :
    Undoes Reading.document Writing.document b := by
  intro y room n hn hreads
  obtain ⟨room', ps, hps, hpairs⟩ := Yaml.pairs_of_reads hn hreads (by simp)
  have hos : Gives (Writing.document b) "os" Writing.system {} b.system :=
    .inl (Writing.document_os b)
  have hinstall : Gives (Writing.document b) "install" Writing.installer {} b.installer :=
    .inl (Writing.document_install b)
  have hextra := extra_of_free hps h.document fun key hkey => Writing.get?_document b hkey
  rw [documentKeys] at hextra
  rw [Reading.document, hpairs,
    fieldOr_of_gives hps (Yaml.undoes_text b.serverUrl) (document_text h.document (by simp)), pure_bind,
    fieldOr_of_gives hps (Yaml.undoes_text b.token) (document_text h.document (by simp)), pure_bind,
    fieldOr_of_gives hps (undoes_system h.system) hos, pure_bind,
    fieldOr_of_gives hps (undoes_installer h.installer) hinstall, pure_bind,
    hextra, pure_bind]

/-! ## Where documents come from -/

/-- A boot document that was read, that joins a machine, or that was given a management network. -/
inductive Obtained : Document → Prop
  | parsed {text : String} {b : Document} : Document.parse text = .ok b → Obtained b
  | joined (address token hostname password isoUrl : String) :
    Obtained (.join address token hostname password isoUrl)
  | managed {b : Document} (macs : List String) (options : Dict String) :
    Obtained b → Obtained (b.withManagement macs options)

theorem free_empty (known : List String) : Free known ∅ := fun key _ => Dict.get?_empty key

theorem tidy_empty : Document.Tidy {} := ⟨free_empty _, free_empty _, free_empty _⟩

/-- Known keys are not kept among the further ones. -/
theorem free_of_reads {known : List String} {ps : List (String × Node)} {r : Node → Read Value}
    {extra : Dict Value} (h : Reads (Reading.extra known ps r) extra) : Free known extra := by
  intro key hkey
  obtain ⟨es, hes, h⟩ := h.of_bind
  have hkeys : (ps.filter fun p => !known.contains p.1).map (·.1) = es.map (·.1) := by
    rw [← List.forall₂_eq_eq_eq, List.forall₂_map_left_iff, List.forall₂_map_right_iff]
    refine hes.of_mapM.imp fun p e he => ?_
    obtain ⟨v, -, he⟩ := he.of_bind
    rw [he.of_pure]
  rw [h.of_pure, Yaml.get?_ofList, Yaml.latest?_eq_none_iff, ← hkeys]
  intro hmem
  obtain ⟨p, hp, rfl⟩ := List.mem_map.1 hmem
  have hnot : p.1 ∉ known := by simpa using (List.mem_filter.1 hp).2
  exact hnot hkey

theorem default_or_reads {ps : List (String × Node)} {default a : α} {r : Node → Read α}
    (h : Reads (Reading.fieldOr ps key default r) a) : a = default ∨ ∃ m, Reads (r m) a := by
  obtain ⟨a?, ha, h⟩ := h.of_bind
  unfold Reader.field? at ha
  split at ha
  · rw [h.of_pure, ha.of_pure]
    exact .inl rfl
  · next p _ =>
    obtain ⟨b, hb, rfl⟩ := ha.of_map
    rw [h.of_pure]
    exact .inr ⟨p.2, hb⟩
  · exact absurd ha Yaml.not_reads_throw

theorem system_free {s : System} (h : Reads (Reading.system y room n) s) : Free systemKeys s.extra := by
  obtain ⟨room', -, h⟩ := h.of_pairs
  obtain ⟨hostname, -, h⟩ := h.of_bind
  obtain ⟨password, -, h⟩ := h.of_bind
  obtain ⟨extra, hextra, h⟩ := h.of_bind
  exact h.of_pure ▸ free_of_reads hextra

theorem installer_free {i : Installer} (h : Reads (Reading.installer y room n) i) :
    Free installerKeys i.extra := by
  obtain ⟨room', -, h⟩ := h.of_pairs
  obtain ⟨automatic, -, h⟩ := h.of_bind
  obtain ⟨mode, -, h⟩ := h.of_bind
  obtain ⟨tty, -, h⟩ := h.of_bind
  obtain ⟨device, -, h⟩ := h.of_bind
  obtain ⟨isoUrl, -, h⟩ := h.of_bind
  obtain ⟨networks, -, h⟩ := h.of_bind
  obtain ⟨extra, hextra, h⟩ := h.of_bind
  exact h.of_pure ▸ free_of_reads hextra

theorem tidy_of_reads {b : Document} (h : Reads (Reading.document y room n) b) : b.Tidy := by
  obtain ⟨room', -, h⟩ := h.of_pairs
  obtain ⟨url, -, h⟩ := h.of_bind
  obtain ⟨token, -, h⟩ := h.of_bind
  obtain ⟨system, hsystem, h⟩ := h.of_bind
  obtain ⟨installer, hinstaller, h⟩ := h.of_bind
  obtain ⟨extra, hextra, h⟩ := h.of_bind
  rw [h.of_pure]
  refine ⟨free_of_reads hextra, ?_, ?_⟩
  · rcases default_or_reads hsystem with rfl | ⟨m, hm⟩
    · exact free_empty _
    · exact system_free hm
  · rcases default_or_reads hinstaller with rfl | ⟨m, hm⟩
    · exact free_empty _
    · exact installer_free hm

theorem tidy_of_parse {text : String} {b : Document} (h : Document.parse text = .ok b) : b.Tidy := by
  unfold Document.parse at h
  dsimp only at h
  split at h
  · cases h
    exact tidy_empty
  · cases hy : Yaml.Document.ofText (body text) with
    | error f => rw [hy] at h; cases h
    | ok y =>
      have hbind : (Except.ok y >>= Reading.document.run {}) = Reading.document.run {} y := rfl
      rw [hy, hbind] at h
      cases hrun : Reading.document.run {} y with
      | error f => rw [hrun] at h; cases h
      | ok d =>
        rw [hrun] at h
        cases h
        cases hroot : y.root with
        | some n => exact tidy_of_reads (Yaml.reads_of_run hrun hroot)
        | none =>
          rw [Reader.run, hroot] at hrun
          cases hrun
          exact tidy_empty

theorem Obtained.tidy {b : Document} (h : Obtained b) : b.Tidy := by
  induction h with
  | parsed h => exact tidy_of_parse h
  | joined address token hostname password isoUrl => exact ⟨free_empty _, free_empty _, free_empty _⟩
  | managed macs options _ ih => exact ⟨ih.document, ih.system, ih.installer⟩

/-! ## The text of a document -/

theorem mem_joinLines {indent : Nat} {lines : List (List Char)} {line : List Char} {c : Char}
    (hline : line ∈ lines) (hc : c ∈ line) : c ∈ Yaml.joinLines indent lines := by
  induction lines with
  | nil => cases hline
  | cons first rest ih =>
    cases rest with
    | nil => exact List.mem_singleton.1 hline ▸ hc
    | cons second rest =>
      rw [Yaml.joinLines, List.mem_append]
      · rcases List.mem_cons.1 hline with rfl | hline
        · exact .inl (List.mem_append_left _ hc)
        · exact .inr (ih hline)
      · nofun

/-- A mapping with a key has a colon in its text. -/
theorem colon_mem_render {qs : List (Value × Value)} (h : (Value.map qs).get? key = some v) :
    ':' ∈ (Value.map qs).render.toList := by
  cases qs with
  | nil => cases h
  | cons p ps =>
    obtain ⟨k, w⟩ := p
    rw [Value.render, String.toList_ofList]
    refine List.mem_append_left _ ?_
    show ':' ∈ Yaml.joinLines 0 (Yaml.pairLines 0 ((k, w) :: ps))
    rw [Yaml.pairLines]
    refine mem_joinLines List.mem_cons_self ?_
    split <;> simp

theorem trim_of_mem {s : String} {c : Char} (hc : c ∈ s.toList) (hblank : Text.isBlank c = false) :
    (Text.trim s).isEmpty = false := by
  rw [Bool.eq_false_iff, ne_eq, String.isEmpty_iff, Text.trim_eq_empty_iff]
  exact fun hall => Bool.noConfusion ((hall c hc).symm.trans hblank)

/-- What is written of a document is not blank, so it is read. -/
theorem parse_render {b : Document} (h : b.Tidy)
    (hback : ReadsBack (body b.render) (Writing.document b)) : Document.parse b.render = .ok b := by
  obtain ⟨y, n, hy, hroot, hbare, hvalue⟩ := hback
  have hread : Reading.document y Reader.depthLimit n = pure b :=
    undoes_document h hbare (Yaml.reads_of_valueOf hvalue)
  have hrun : Reading.document.run {} y = .ok b := by
    rw [Reader.run, hroot]
    dsimp only
    rw [hread]
    rfl
  have hblank : (Text.trim (body b.render)).isEmpty = false := by
    have hcolon : ':' ∈ (body b.render).toList := by
      rw [body_render, String.toList_append]
      exact List.mem_append_right _ (colon_mem_render (Writing.document_os b))
    exact trim_of_mem hcolon (by decide)
  unfold Document.parse
  dsimp only
  rw [hblank, hy]
  have hbind : (Except.ok y >>= Reading.document.run {}) = Reading.document.run {} y := rfl
  rw [hbind, hrun]
  rfl

/-! ## Round trips -/

/-- The text starts with the marker line, and is read as the document if the tree that was written reads
back. -/
structure RoundTrips (b : Document) : Prop where
  marked : b.render.startsWith (marker ++ "\n") = true
  read : ReadsBack (body b.render) (Writing.document b) → Document.parse b.render = .ok b

/-- The second document is the first one with this management network. -/
structure Manages (b b' : Document) (net : Network) : Prop where
  network : b'.installer.networks.get? managementNetwork = some net
  others : ∀ name ≠ managementNetwork,
    b'.installer.networks.get? name = b.installer.networks.get? name
  rest : { b' with installer := { b'.installer with networks := b.installer.networks } } = b

theorem manages_withManagement (b : Document) (macs : List String) (options : Dict String) :
    Manages b (b.withManagement macs options) ⟨macs, "dhcp", true, options⟩ where
  network := by rw [Document.withManagement, Dict.get?_insert, if_pos rfl]
  others name hname := by rw [Document.withManagement, Dict.get?_insert, if_neg hname]
  rest := rfl

/-- Documents that were read, that join a machine, and that were given a management network after that,
are read as what was written. A management network replaces the one there is, so that the last one counts
and the same one twice makes no difference, and nothing else. -/
theorem round_trips (b : Document) (macs : List String) (options : Dict String) :
    (Obtained b → RoundTrips b) ∧
      Manages b (b.withManagement macs options) ⟨macs, "dhcp", true, options⟩ ∧
      ∀ macs' options',
        (b.withManagement macs' options').withManagement macs options = b.withManagement macs options := by
  refine ⟨fun h => ⟨by simp [Document.render], parse_render h.tidy⟩, manages_withManagement b macs options,
    fun macs' options' => ?_⟩
  rw [Document.withManagement, Document.withManagement, Dict.insert_insert]
  rfl

/-- A document with keys that are not known, after its management network was set. -/
theorem round_trips_sample : ∃ b, Document.parse sample = .ok b ∧
    Obtained (b.withManagement ["aa"] ∅) ∧
    ReadsBack (body (b.withManagement ["aa"] ∅).render) (Writing.document (b.withManagement ["aa"] ∅)) ∧
    Document.parse (b.withManagement ["aa"] ∅).render = .ok (b.withManagement ["aa"] ∅) := by
  obtain ⟨b, hb, hwritten⟩ := sample_written
  have hobtained : Obtained (b.withManagement ["aa"] ∅) := .managed _ _ (.parsed hb)
  have hback : ReadsBack (body (b.withManagement ["aa"] ∅).render)
      (Writing.document (b.withManagement ["aa"] ∅)) := by
    rw [body_render, hwritten, render_sampleTree]
    exact readsBack_sampleText
  exact ⟨b, hb, hobtained, hback, ((round_trips _ ["aa"] ∅).1 hobtained).read hback⟩

end BareMetal.Boot
