import BareMetal.Boot.Document
import Mathlib.Data.List.Basic
import Mathlib.Data.List.TakeWhile

/-!
# Authorities

The part of the address of a resource that says where it is: `user@host:port`, of which only the host is
necessary. A host is a name, to which dotted numbers belong too, or a numeric address in brackets, without
which its colons could not be told from the one before the port (`Http.reads_iff`, `Http.not_reads`).
-/

namespace BareMetal.Http

/-! ## Numeric addresses -/

/-- Four numbers of eight bits. -/
def IsDotted (cs : List Char) : Prop :=
  ∃ a b c d : Fin 256, cs = Nat.toDigits 10 a ++ '.' :: (Nat.toDigits 10 b ++ '.' ::
    (Nat.toDigits 10 c ++ '.' :: Nat.toDigits 10 d))

/-- A digit of a number in hexadecimal, with letters of either case. -/
def isHexDigit (c : Char) : Bool :=
  c.isDigit || ('a' ≤ c && c ≤ 'f') || ('A' ≤ c && c ≤ 'F')

/-- Sixteen bits in hexadecimal. -/
def IsGroup (cs : List Char) : Prop := cs ≠ [] ∧ cs.length ≤ 4 ∧ ∀ c ∈ cs, isHexDigit c = true

/-- So many groups with colons between them, of which the last two may be written as dotted numbers. -/
inductive Groups (mayBeDotted : Bool) : Nat → List Char → Prop
  | last {g : List Char} : IsGroup g → Groups mayBeDotted 1 g
  | dotted {cs : List Char} : mayBeDotted = true → IsDotted cs → Groups mayBeDotted 2 cs
  | cons {g cs : List Char} {n : Nat} : IsGroup g → Groups mayBeDotted n cs →
    Groups mayBeDotted (n + 1) (g ++ ':' :: cs)

/-- No groups or some. -/
def GroupsOrNone (mayBeDotted : Bool) (n : Nat) (cs : List Char) : Prop :=
  n = 0 ∧ cs = [] ∨ Groups mayBeDotted n cs

/-- Eight groups, where two colons in a row can stand for one or more groups of zeros. -/
inductive IsColonAddress : List Char → Prop
  | full {cs : List Char} : Groups true 8 cs → IsColonAddress cs
  | shortened {left right : List Char} {m n : Nat} : GroupsOrNone false m left → GroupsOrNone true n right →
    m + n ≤ 7 → IsColonAddress (left ++ ':' :: ':' :: right)

/-! ## Names -/

/-- A part of a host name. How long it is and where it has hyphens does not matter here. -/
def IsLabel (cs : List Char) : Prop := cs ≠ [] ∧ ∀ c ∈ cs, (c.isAlphanum || c == '-') = true

/-- Labels with points between them. -/
inductive IsHostName : List Char → Prop
  | label {cs : List Char} : IsLabel cs → IsHostName cs
  | cons {label cs : List Char} : IsLabel label → IsHostName cs → IsHostName (label ++ '.' :: cs)

/-- What a machine can be reached at. -/
def IsAddress (cs : List Char) : Prop := IsDotted cs ∨ IsColonAddress cs ∨ IsHostName cs

/-! ## The syntax of authorities -/

/-- A character that means itself wherever it stands in an address. -/
def isUnreserved (c : Char) : Bool := c.isAlphanum || "-._~".toList.contains c

/-- A character that may separate parts of a name. -/
def isDelimiter (c : Char) : Bool := "!$&'()*+,;=".toList.contains c

/-- Characters of a kind and percent-encoded bytes. -/
inductive Encoded (kind : Char → Bool) : List Char → Prop
  | nil : Encoded kind []
  | plain {c : Char} {cs : List Char} : kind c = true → Encoded kind cs → Encoded kind (c :: cs)
  | byte {a b : Char} {cs : List Char} : isHexDigit a = true → isHexDigit b = true → Encoded kind cs →
    Encoded kind ('%' :: a :: b :: cs)

/-- A form of numeric addresses that is kept for later. -/
def IsFutureAddress (cs : List Char) : Prop :=
  ∃ version address, cs = 'v' :: (version ++ '.' :: address) ∧ version ≠ [] ∧ address ≠ [] ∧
    (∀ c ∈ version, isHexDigit c = true) ∧
    ∀ c ∈ address, (isUnreserved c || isDelimiter c || c == ':') = true

/-- Where a resource is. -/
inductive Host
  /-- A numeric address that is written in brackets. -/
  | bracketed (address : List Char)
  | name (text : List Char)

namespace Host

/-- How the host is written. -/
def text : Host → List Char
  | .bracketed address => '[' :: (address ++ [']'])
  | .name text => text

/-- What is in brackets is an address with colons or one kept for later, and a name has only characters that
a name can have. -/
def Valid : Host → Prop
  | .bracketed address => IsColonAddress address ∨ IsFutureAddress address
  | .name text => Encoded (fun c => isUnreserved c || isDelimiter c) text

/-- The host is the one with the address, which is in brackets if it is numeric and has colons. -/
def Denotes : Host → List Char → Prop
  | .bracketed text, address => text = address ∧ IsColonAddress address
  | .name text, address => text = address ∧ ¬IsColonAddress address

end Host

/-- Where and as whom a resource is accessed. -/
structure Authority where
  user : Option (List Char)
  host : Host
  port : Option (List Char)

namespace Authority

/-- How the authority is written. -/
def text (a : Authority) : List Char :=
  (a.user.elim [] (· ++ ['@'])) ++ a.host.text ++ a.port.elim [] (':' :: ·)

/-- The parts have only characters that they can have, and a port has digits only. -/
structure Valid (a : Authority) : Prop where
  user : ∀ u ∈ a.user, Encoded (fun c => isUnreserved c || isDelimiter c || c == ':') u
  host : a.host.Valid
  port : ∀ p ∈ a.port, ∀ c ∈ p, c.isDigit = true

end Authority

/-- A character before which an authority ends. -/
def isEnd (c : Char) : Bool := c == '/' || c == '?' || c == '#'

/-- The scheme of the addresses, with what stands between it and the authority. -/
def secure : List Char := "https://".toList

/-- The address can be read so that this is its authority. -/
def Reads (url : String) (a : Authority) : Prop :=
  a.Valid ∧ ∃ rest, url.toList = secure ++ (a.text ++ rest) ∧ ∀ c ∈ rest.head?, isEnd c = true

/-- The part of an address in which its authority stands. -/
def authorityPart (url : String) : List Char := (url.toList.drop secure.length).takeWhile (!isEnd ·)

/-- The number of colons outside of brackets. -/
def openColons : (inside : Bool) → List Char → Nat
  | _, [] => 0
  | inside, c :: cs =>
    if c = '[' then openColons true cs
    else if c = ']' then openColons false cs
    else (if c = ':' && !inside then 1 else 0) + openColons inside cs

/-! ## Characters -/

section Characters

variable {cs : List Char} {c d : Char}

/-- Characters of a kind are not others. -/
theorem ne_of_kind {kind : Char → Bool} (h : kind c = true) (hd : kind d = false) : c ≠ d := by
  rintro rfl
  exact Bool.noConfusion (h.symm.trans hd)

theorem isUnreserved_of_isAlphanum (h : c.isAlphanum = true) : isUnreserved c = true := by
  simp [isUnreserved, h]

theorem isUnreserved_of_isDigit (h : c.isDigit = true) : isUnreserved c = true :=
  isUnreserved_of_isAlphanum (by simp [Char.isAlphanum, h])

theorem isAlphanum_of_isHexDigit (h : isHexDigit c = true) : c.isAlphanum = true := by
  have hkinds : c.isAlphanum = (c.isUpper || c.isLower || c.isDigit) := rfl
  simp only [isHexDigit, Bool.or_eq_true, Bool.and_eq_true, decide_eq_true_iff] at h
  rcases h with (hdigit | ⟨hfrom, hto⟩) | ⟨hfrom, hto⟩
  · rw [hkinds, hdigit, Bool.or_true]
  · have hlower : c.isLower = true :=
      Bool.and_eq_true_iff.2 ⟨decide_eq_true hfrom, decide_eq_true (Char.le_trans hto (by decide : 'f' ≤ 'z'))⟩
    rw [hkinds, hlower, Bool.or_true, Bool.true_or]
  · have hupper : c.isUpper = true := decide_eq_true ⟨hfrom, Char.le_trans hto (by decide : 'F' ≤ 'Z')⟩
    rw [hkinds, hupper, Bool.true_or, Bool.true_or]

theorem IsDotted.chars (h : IsDotted cs) : ∀ c ∈ cs, (c.isDigit || c == '.') = true := by
  obtain ⟨a, b, c, d, rfl⟩ := h
  have hdigits (n : Fin 256) : ∀ c ∈ Nat.toDigits 10 n, (c.isDigit || c == '.') = true := fun c hc => by
    simp [Nat.isDigit_of_mem_toDigits (by decide) (by decide) hc]
  simp only [List.forall_mem_append, List.forall_mem_cons]
  exact ⟨hdigits a, by decide, hdigits b, by decide, hdigits c, by decide, hdigits d⟩

theorem IsDotted.isUnreserved (h : IsDotted cs) : ∀ c ∈ cs, isUnreserved c = true := by
  intro c hc
  rcases Bool.or_eq_true_iff.1 (h.chars c hc) with hdigit | hpoint
  · exact isUnreserved_of_isDigit hdigit
  · rw [beq_iff_eq] at hpoint
    rw [hpoint]
    decide

theorem IsLabel.isUnreserved (h : IsLabel cs) : ∀ c ∈ cs, isUnreserved c = true := by
  intro c hc
  rcases Bool.or_eq_true_iff.1 (h.2 c hc) with halnum | hhyphen
  · exact isUnreserved_of_isAlphanum halnum
  · rw [beq_iff_eq] at hhyphen
    rw [hhyphen]
    decide

theorem IsHostName.isUnreserved (h : IsHostName cs) : ∀ c ∈ cs, isUnreserved c = true := by
  induction h with
  | label h => exact h.isUnreserved
  | cons h _ ih =>
    rw [List.forall_mem_append, List.forall_mem_cons]
    exact ⟨h.isUnreserved, by decide, ih⟩

/-- What numeric addresses with colons are made of. -/
def isColonChar (c : Char) : Bool := isHexDigit c || c == ':' || c == '.'

theorem isColonChar_of_isHexDigit (h : isHexDigit c = true) : isColonChar c = true := by
  simp [isColonChar, h]

theorem Groups.chars {dotted : Bool} {n : Nat} (h : Groups dotted n cs) : ∀ c ∈ cs, isColonChar c = true := by
  induction h with
  | last h => exact fun c hc => isColonChar_of_isHexDigit (h.2.2 c hc)
  | dotted _ h =>
    intro c hc
    rcases Bool.or_eq_true_iff.1 (h.chars c hc) with hdigit | hpoint
    · exact isColonChar_of_isHexDigit (by simp [isHexDigit, hdigit])
    · simp [isColonChar, hpoint]
  | cons h _ ih =>
    rw [List.forall_mem_append, List.forall_mem_cons]
    exact ⟨fun c hc => isColonChar_of_isHexDigit (h.2.2 c hc), by decide, ih⟩

theorem GroupsOrNone.chars {dotted : Bool} {n : Nat} (h : GroupsOrNone dotted n cs) :
    ∀ c ∈ cs, isColonChar c = true := by
  rcases h with ⟨-, rfl⟩ | h
  · exact List.forall_mem_nil _
  · exact h.chars

theorem IsColonAddress.chars (h : IsColonAddress cs) : ∀ c ∈ cs, isColonChar c = true := by
  cases h with
  | full h => exact h.chars
  | shortened hleft hright =>
    simp only [List.forall_mem_append, List.forall_mem_cons]
    exact ⟨hleft.chars, by decide, by decide, hright.chars⟩

/-- There is a colon between any two groups. -/
theorem Groups.le_count {dotted : Bool} {n : Nat} (h : Groups dotted n cs) : n ≤ cs.count ':' + 2 := by
  induction h with
  | last | dotted => omega
  | cons _ _ ih =>
    rw [List.count_append, List.count_cons_self]
    omega

theorem IsColonAddress.two_le_count (h : IsColonAddress cs) : 2 ≤ cs.count ':' := by
  cases h with
  | full h =>
    have hcount := h.le_count
    omega
  | shortened =>
    rw [List.count_append, List.count_cons_self, List.count_cons_self]
    omega

theorem Encoded.notMem {kind : Char → Bool} (h : Encoded kind cs) (hkind : kind d = false)
    (hhex : isHexDigit d = false) (hpercent : d ≠ '%') : d ∉ cs := by
  induction h with
  | nil => exact List.not_mem_nil
  | plain hc _ ih => exact List.not_mem_cons_of_ne_of_not_mem (ne_of_kind hc hkind).symm ih
  | byte ha hb _ ih =>
    refine List.not_mem_cons_of_ne_of_not_mem hpercent ?_
    refine List.not_mem_cons_of_ne_of_not_mem (ne_of_kind ha hhex).symm ?_
    exact List.not_mem_cons_of_ne_of_not_mem (ne_of_kind hb hhex).symm ih

/-- Without colons, an address has nothing that would need to be encoded. -/
theorem IsAddress.isUnreserved (h : IsAddress cs) (hcolons : ¬IsColonAddress cs) :
    ∀ c ∈ cs, isUnreserved c = true := by
  rcases h with hdotted | hcolon | hname
  · exact hdotted.isUnreserved
  · exact absurd hcolon hcolons
  · exact hname.isUnreserved

theorem encoded_of_forall {kind : Char → Bool} (h : ∀ c ∈ cs, kind c = true) : Encoded kind cs := by
  induction cs with
  | nil => exact .nil
  | cons c cs ih =>
    rw [List.forall_mem_cons] at h
    exact .plain h.1 (ih h.2)

end Characters

/-! ## Readings -/

/-- What host names, numeric addresses and the ports after them are made of. -/
def isBare (c : Char) : Bool := isUnreserved c || c == ':'

section Readings

variable {url : String} {cs name port : List Char} {a : Authority}

theorem isBare_of_isColonChar {c : Char} (h : isColonChar c = true) : isBare c = true := by
  simp only [isColonChar, Bool.or_eq_true, beq_iff_eq] at h
  rcases h with (hhex | rfl) | rfl
  · simp [isBare, isUnreserved_of_isAlphanum (isAlphanum_of_isHexDigit hhex)]
  · decide
  · decide

theorem bare_of_unreserved (h : ∀ c ∈ cs, isUnreserved c = true) : ∀ c ∈ cs, isBare c = true :=
  fun c hc => by simp [isBare, h c hc]

theorem bare_withPort (hname : ∀ c ∈ name, isBare c = true) (hport : ∀ c ∈ port, c.isDigit = true) :
    ∀ c ∈ name ++ ':' :: port, isBare c = true := by
  rw [List.forall_mem_append, List.forall_mem_cons]
  exact ⟨hname, by decide, bare_of_unreserved fun c hc => isUnreserved_of_isDigit (hport c hc)⟩

theorem not_isEnd_of_isBare {c : Char} (h : isBare c = true) : isEnd c = false := by
  have hslash : c ≠ '/' := ne_of_kind h (by decide)
  have hquestion : c ≠ '?' := ne_of_kind h (by decide)
  have hhash : c ≠ '#' := ne_of_kind h (by decide)
  simp [isEnd, hslash, hquestion, hhash]

/-- Where nothing names a user or is in brackets or follows the authority, a reading divides the text into a
name and a port. -/
theorem reads_iff_of_bare (hurl : url.toList = secure ++ cs) (hcs : ∀ c ∈ cs, isBare c = true) :
    Reads url a ↔ a.Valid ∧ ∃ name, a.user = none ∧ a.host = .name name ∧
      name ++ a.port.elim [] (':' :: ·) = cs := by
  have hmem {c : Char} (hc : isBare c = false) : c ∉ cs := fun hmem =>
    Bool.noConfusion ((hcs c hmem).symm.trans hc)
  obtain ⟨user, host, port⟩ := a
  constructor
  · rintro ⟨hvalid, rest, htext, hrest⟩
    rw [hurl, List.append_cancel_left_eq] at htext
    have hnil : rest = [] := by
      cases rest with
      | nil => rfl
      | cons c rest =>
        have hbare := not_isEnd_of_isBare (hcs c (by simp [htext]))
        exact Bool.noConfusion (hbare.symm.trans (hrest c rfl))
    rw [hnil, List.append_nil] at htext
    cases user with
    | some user => exact absurd (by simp [htext, Authority.text]) (hmem (c := '@') (by decide))
    | none =>
      cases host with
      | bracketed address =>
        exact absurd (by simp [htext, Authority.text, Host.text]) (hmem (c := '[') (by decide))
      | name name => exact ⟨hvalid, name, rfl, rfl, by simp [htext, Authority.text, Host.text]⟩
  · rintro ⟨hvalid, name, huser, hhost, htext⟩
    cases huser
    cases hhost
    exact ⟨hvalid, [], by simp [hurl, Authority.text, Host.text, htext], by simp⟩

theorem notMem_colon_of_valid (h : (Host.name name).Valid) : ':' ∉ name :=
  Encoded.notMem h (by decide) (by decide) (by decide)

theorem notMem_colon_of_digits (h : ∀ c ∈ port, c.isDigit = true) : ':' ∉ port := by
  intro hmem
  have hdigit := h ':' hmem
  exact absurd hdigit (by decide)

/-- Names and ports have no colons. -/
theorem count_colon_le_one {user : Option (List Char)} {port : Option (List Char)}
    (h : Authority.Valid ⟨user, .name name, port⟩) : (name ++ port.elim [] (':' :: ·)).count ':' ≤ 1 := by
  rw [List.count_append, List.count_eq_zero_of_not_mem (notMem_colon_of_valid h.host)]
  cases port with
  | none => simp
  | some port =>
    rw [Option.elim_some, List.count_cons_self,
      List.count_eq_zero_of_not_mem (notMem_colon_of_digits (h.port port rfl))]

/-- A name and a port can only be read as such. -/
theorem reads_iff (hurl : url.toList = secure ++ (name ++ ':' :: port))
    (hname : ∀ c ∈ name, isUnreserved c = true) (hport : ∀ c ∈ port, c.isDigit = true) :
    Reads url a ↔ a = ⟨none, .name name, some port⟩ := by
  rw [reads_iff_of_bare hurl (bare_withPort (bare_of_unreserved hname) hport)]
  constructor
  · obtain ⟨user, host, port'⟩ := a
    rintro ⟨hvalid, name', huser, hhost, htext⟩
    cases huser
    cases hhost
    have hcolon : ':' ∉ name' := notMem_colon_of_valid hvalid.host
    cases port' with
    | none =>
      rw [Option.elim_none, List.append_nil] at htext
      exact absurd (by simp [htext]) hcolon
    | some port' =>
      have hdigits : ':' ∉ port' := notMem_colon_of_digits (hvalid.port port' rfl)
      obtain ⟨rfl, -, rfl⟩ := (List.append_cons_inj_of_notMem hcolon hdigits).1 htext
      rfl
  · rintro rfl
    have hplain : ∀ c ∈ name, (isUnreserved c || isDelimiter c) = true := fun c hc => by simp [hname c hc]
    exact ⟨⟨by simp, encoded_of_forall hplain, by simpa using hport⟩, name, rfl, rfl, rfl⟩

/-- A numeric address with colons that is not in brackets cannot be read, whatever port follows it. -/
theorem not_reads (hurl : url.toList = secure ++ (name ++ ':' :: port)) (hname : IsColonAddress name)
    (hport : ∀ c ∈ port, c.isDigit = true) : ¬Reads url a := by
  rw [reads_iff_of_bare hurl (bare_withPort (fun c hc => isBare_of_isColonChar (hname.chars c hc)) hport)]
  obtain ⟨user, host, port'⟩ := a
  rintro ⟨hvalid, name', -, hhost, htext⟩
  cases hhost
  have hone : (name ++ ':' :: port).count ':' ≤ 1 := htext ▸ count_colon_le_one hvalid
  have htwo : 2 ≤ name.count ':' := hname.two_le_count
  rw [List.count_append] at hone
  omega

theorem authorityPart_of_bare (hurl : url.toList = secure ++ cs) (hcs : ∀ c ∈ cs, isBare c = true) :
    authorityPart url = cs := by
  rw [authorityPart, hurl, List.drop_left, List.takeWhile_eq_self_iff]
  exact fun c hc => by simp [not_isEnd_of_isBare (hcs c hc)]

/-- Without brackets, all colons are open. -/
theorem openColons_of_bare (hcs : ∀ c ∈ cs, isBare c = true) : openColons false cs = cs.count ':' := by
  induction cs with
  | nil => rfl
  | cons c cs ih =>
    rw [List.forall_mem_cons] at hcs
    have hopen : c ≠ '[' := ne_of_kind hcs.1 (by decide)
    have hclose : c ≠ ']' := ne_of_kind hcs.1 (by decide)
    rw [openColons, if_neg hopen, if_neg hclose, ih hcs.2, List.count_cons, Nat.add_comm]
    simp

end Readings

end BareMetal.Http
