import BareMetal.Failure
import BareMetal.Time.Span
import Mathlib.Algebra.Ring.Nat
import Mathlib.Data.List.TakeWhile

/-!
# Written spans

A written span is `0` or a row of components, each a numeral and a unit. The scan takes one component
in each round (`Span.round_text`, `Span.round_cases`), so that a text is accepted exactly if it
is such a row and the values and their sum are in range (`Span.parse_sums_components`); the sum does not
depend on the order of the components.
-/

namespace BareMetal

/-! ## Numerals -/

namespace Number.Decimal

variable {whole part more cs : List Char}

theorem spanDigits_of_digits (h : ∀ c ∈ cs, c.isDigit = true) (rest : List Char)
    (hrest : ∀ c ∈ rest.head?, c.isDigit = false) : spanDigits (cs ++ rest) = (cs, rest) := by
  have hstop : rest.takeWhile (·.isDigit) = [] ∧ rest.dropWhile (·.isDigit) = rest := by
    cases rest with
    | nil => exact ⟨rfl, rfl⟩
    | cons c rest => simp [hrest c rfl]
  rw [spanDigits, List.takeWhile_append_of_pos h, List.dropWhile_append_of_pos h, hstop.1, hstop.2,
    List.append_nil]

/-- Digits alone are a numeral. -/
theorem ofChars?_digits (h : ∀ c ∈ cs, c.isDigit = true) :
    ofChars? cs = if cs.isEmpty then none else some ⟨number 0 cs, 0⟩ := by
  have hspan := spanDigits_of_digits h [] nofun
  rw [List.append_nil] at hspan
  simp [ofChars?, hspan, exponent?]

/-- Digits with one point are a numeral if there is a digit. -/
theorem ofChars?_pointed (hwhole : ∀ c ∈ whole, c.isDigit = true) (hpart : ∀ c ∈ part, c.isDigit = true) :
    ofChars? (whole ++ '.' :: part) =
      if whole.isEmpty && part.isEmpty then none else some ⟨number 0 (whole ++ part), -part.length⟩ := by
  have hspan := spanDigits_of_digits hwhole ('.' :: part) (by simp)
  have hspan' := spanDigits_of_digits hpart [] nofun
  rw [List.append_nil] at hspan'
  simp [ofChars?, hspan, hspan', exponent?]

/-- Digits with a second point are no numeral. -/
theorem ofChars?_pointed_twice (hwhole : ∀ c ∈ whole, c.isDigit = true)
    (hpart : ∀ c ∈ part, c.isDigit = true) : ofChars? (whole ++ '.' :: (part ++ '.' :: more)) = none := by
  have hspan := spanDigits_of_digits hwhole ('.' :: (part ++ '.' :: more)) (by simp)
  have hspan' := spanDigits_of_digits hpart ('.' :: more) (by simp)
  simp [ofChars?, hspan, hspan', exponent?]

end Number.Decimal

namespace Span

open Number

/-- Digits with at most one point among them, and at least one digit. -/
structure IsNumeral (cs : List Char) : Prop where
  chars : ∀ c ∈ cs, c.isDigit = true ∨ c = '.'
  points : cs.count '.' ≤ 1
  digit : ∃ c ∈ cs, c.isDigit = true

theorem isNumeral_iff {c : Char} : isNumeral c = true ↔ c.isDigit = true ∨ c = '.' := by
  simp [isNumeral]

theorem not_isDigit_point : '.'.isDigit = false := by decide

theorem count_point_of_digits {cs : List Char} (h : ∀ c ∈ cs, c.isDigit = true) : cs.count '.' = 0 := by
  refine List.count_eq_zero.2 fun hmem => ?_
  exact Bool.noConfusion ((h _ hmem).symm.trans not_isDigit_point)

/-- A list of digits and points has no point, or a first one. -/
theorem points_cases {cs : List Char} (h : ∀ c ∈ cs, c.isDigit = true ∨ c = '.') :
    (∀ c ∈ cs, c.isDigit = true) ∨ ∃ whole rest, cs = whole ++ '.' :: rest ∧
      ∀ c ∈ whole, c.isDigit = true := by
  have hsplit : cs.takeWhile (·.isDigit) ++ cs.dropWhile (·.isDigit) = cs := List.takeWhile_append_dropWhile
  have hdigits : ∀ c ∈ cs.takeWhile (·.isDigit), c.isDigit = true := fun c hc => List.mem_takeWhile_imp hc
  cases hrest : cs.dropWhile (·.isDigit) with
  | nil =>
    rw [hrest, List.append_nil] at hsplit
    exact .inl (hsplit ▸ hdigits)
  | cons c rest =>
    have hnot : ¬c.isDigit = true := by
      have hhead := List.head_dropWhile_not (·.isDigit) (l := cs) (by simp [hrest])
      simpa [hrest] using hhead
    have hmem : c ∈ cs := by
      rw [← hsplit, hrest]
      simp
    obtain rfl : c = '.' := (h c hmem).resolve_left hnot
    exact .inr ⟨_, rest, by rw [← hrest, hsplit], hdigits⟩

/-- Of the lists of digits and points, the numerals can be read. -/
theorem isSome_ofChars?_iff {cs : List Char} (h : ∀ c ∈ cs, c.isDigit = true ∨ c = '.') :
    (Decimal.ofChars? cs).isSome ↔ IsNumeral cs := by
  rcases points_cases h with hdigits | ⟨whole, rest, rfl, hwhole⟩
  · rw [Decimal.ofChars?_digits hdigits]
    cases cs with
    | nil => exact iff_of_false nofun fun hn => by simpa using hn.digit
    | cons c cs =>
      refine iff_of_true rfl ⟨h, ?_, c, List.mem_cons_self, hdigits c List.mem_cons_self⟩
      rw [count_point_of_digits hdigits]
      decide
  · have hrest : ∀ c ∈ rest, c.isDigit = true ∨ c = '.' := fun c hc => h c (by simp [hc])
    rcases points_cases hrest with hpart | ⟨part, more, rfl, hpart⟩
    · have hcount : (whole ++ '.' :: rest).count '.' = 1 := by
        rw [List.count_append, List.count_cons_self, count_point_of_digits hwhole, count_point_of_digits hpart]
      rw [Decimal.ofChars?_pointed hwhole hpart]
      by_cases hempty : whole = [] ∧ rest = []
      · obtain ⟨rfl, rfl⟩ := hempty
        exact iff_of_false nofun fun hn => by simpa [not_isDigit_point] using hn.digit
      · have hcond : ¬(whole.isEmpty && rest.isEmpty) = true := by simpa using hempty
        rw [if_neg hcond]
        refine iff_of_true rfl ⟨h, Nat.le_of_eq hcount, ?_⟩
        cases whole with
        | cons c whole => exact ⟨c, by simp, hwhole c List.mem_cons_self⟩
        | nil =>
          cases rest with
          | cons c rest => exact ⟨c, by simp, hpart c List.mem_cons_self⟩
          | nil => exact absurd ⟨rfl, rfl⟩ hempty
    · rw [Decimal.ofChars?_pointed_twice hwhole hpart]
      refine iff_of_false nofun fun hn => ?_
      have hpoints := hn.points
      rw [List.count_append, List.count_cons_self, List.count_append, List.count_cons_self] at hpoints
      omega

/-! ## Components -/

/-- A unit of time. -/
inductive Measure
  | millisecond | second | minute | hour
deriving DecidableEq

/-- How a unit is written. -/
def Measure.text : Measure → List Char
  | millisecond => ['m', 's']
  | second => ['s']
  | minute => ['m']
  | hour => ['h']

/-- The number of seconds in a unit. -/
def Measure.seconds : Measure → Float
  | millisecond => 0.001
  | second => 1.0
  | minute => 60.0
  | hour => 3600.0

theorem unitSeconds?_text (u : Measure) : unitSeconds? u.text = some u.seconds := by
  cases u <;> rfl

theorem exists_measure {cs : List Char} {x : Float} (h : unitSeconds? cs = some x) : ∃ u : Measure, u.text = cs := by
  unfold unitSeconds? at h
  split at h
  · exact ⟨.millisecond, rfl⟩
  · exact ⟨.second, rfl⟩
  · exact ⟨.minute, rfl⟩
  · exact ⟨.hour, rfl⟩
  · cases h

theorem Measure.not_isNumeral (u : Measure) : ∀ c ∈ u.text, isNumeral c = false := by
  have hall : (u.text.all fun c => !isNumeral c) = true := by cases u <;> decide
  simpa using hall

/-- A numeral with the unit that follows it. -/
structure Component where
  numeral : List Char
  unit : Measure
  isNumeral : IsNumeral numeral

namespace Component

/-- How a component is written. -/
def text (c : Component) : List Char := c.numeral ++ c.unit.text

/-- The length of a component, if it is in range. -/
def value? (c : Component) : Option Span :=
  (Decimal.ofChars? c.numeral).bind fun d => ofSeconds? (d.toFloat * c.unit.seconds)

theorem chars (c : Component) : ∀ x ∈ c.numeral, Span.isNumeral x = true := fun x hx =>
  isNumeral_iff.2 (c.isNumeral.chars x hx)

theorem component_eq (c : Component) (text : String) :
    component text c.numeral c.unit.text = .ok c.value? := by
  obtain ⟨d, hd⟩ := Option.isSome_iff_exists.1 ((isSome_ofChars?_iff c.isNumeral.chars).2 c.isNumeral)
  simp [component, value?, hd, unitSeconds?_text]

end Component

/-- What is read as a component is one. -/
theorem exists_component {text : String} {numeral unit : List Char} {v? : Option Span}
    (hchars : ∀ c ∈ numeral, isNumeral c = true) (h : component text numeral unit = .ok v?) :
    ∃ c : Component, c.numeral = numeral ∧ c.unit.text = unit := by
  unfold component at h
  cases hd : Decimal.ofChars? numeral with
  | none => simp [hd] at h
  | some d =>
    cases hu : unitSeconds? unit with
    | none => simp [hd, hu] at h
    | some x =>
      obtain ⟨u, rfl⟩ := exists_measure hu
      have hnumeral : IsNumeral numeral := by
        rw [← isSome_ofChars?_iff fun c hc => isNumeral_iff.1 (hchars c hc), hd]
        rfl
      exact ⟨⟨numeral, u, hnumeral⟩, rfl, rfl⟩

/-! ## Rounds of the scan -/

/-- One round of the scan: an answer, or the sum so far and what is left of the text. -/
def round (text : String) (total : Span) (rest : List Char) : Except Malformed Span ⊕ (Span × List Char) :=
  let tail := rest.dropWhile isNumeral
  if rest.isEmpty then .inl (.ok total)
  else if tail.isEmpty then .inl (.error (.missingUnit text))
  else if (rest.takeWhile isNumeral).isEmpty then .inl (.error (.missingNumber text))
  else
    match component text (rest.takeWhile isNumeral) (tail.takeWhile (!isNumeral ·)) with
    | .error e => .inl (.error e)
    | .ok none => .inl (.error (.outOfRange text))
    | .ok (some part) =>
      match total.add? part with
      | none => .inl (.error (.outOfRange text))
      | some sum => .inr (sum, tail.dropWhile (!isNumeral ·))

/-- The answer of the scan, if at most so many rounds lead to it. -/
def answerWithin (text : String) : Nat → Span → List Char → Option (Except Malformed Span)
  | 0, _, _ => none
  | n + 1, total, rest =>
    match round text total rest with
    | .inl answer => some answer
    | .inr (sum, rest') => answerWithin text n sum rest'

variable {text : String} {total sum r : Span} {rest rest' : List Char}

/-- The scan goes from round to round. -/
theorem parseFrom_eq (text : String) (total : Span) (rest : List Char) :
    parseFrom text total rest = match round text total rest with
      | .inl answer => answer
      | .inr (sum, rest') => parseFrom text sum rest' := by
  rw [parseFrom]
  unfold round
  dsimp only
  split
  · rfl
  · split
    · rfl
    · split
      · next h => simp [h]
      · next h =>
        rw [if_neg (by simp [h])]
        cases component text (rest.takeWhile isNumeral)
            ((rest.dropWhile isNumeral).takeWhile (!isNumeral ·)) with
        | error e => rfl
        | ok part? =>
          cases part? with
          | none => rfl
          | some part =>
            dsimp only
            cases total.add? part <;> rfl

/-- The characters go on with a numeral, or end. -/
def Starts (rest : List Char) : Prop := ∀ c ∈ rest.head?, isNumeral c = true

theorem Component.starts (c : Component) (rest : List Char) : Starts (c.text ++ rest) := by
  obtain ⟨x, hx, -⟩ := c.isNumeral.digit
  intro y hy
  cases hn : c.numeral with
  | nil => simp [hn] at hx
  | cons z zs =>
    obtain rfl : z = y := by simpa [text, hn] using hy
    exact c.chars z (by simp [hn])

/-- A round takes one component. -/
theorem round_text (c : Component) (h : Starts rest) :
    round text total (c.text ++ rest) = match c.value?.bind total.add? with
      | none => .inl (.error (.outOfRange text))
      | some sum => .inr (sum, rest) := by
  have hunit : ∀ x ∈ c.unit.text, (!isNumeral x) = true := fun x hx => by simp [c.unit.not_isNumeral x hx]
  obtain ⟨u, us, hu⟩ : ∃ u us, c.unit.text = u :: us := by cases c.unit <;> exact ⟨_, _, rfl⟩
  obtain ⟨x, xs, hx⟩ : ∃ x xs, c.numeral = x :: xs := List.exists_cons_of_ne_nil fun hnil => by
    simpa [hnil] using c.isNumeral.digit
  have hstop : isNumeral u = false := c.unit.not_isNumeral u (by simp [hu])
  have htail : (c.text ++ rest).dropWhile isNumeral = c.unit.text ++ rest := by
    rw [Component.text, List.append_assoc, List.dropWhile_append_of_pos c.chars, hu, List.cons_append,
      List.dropWhile_cons_of_neg (by simp [hstop])]
  have hnumeral : (c.text ++ rest).takeWhile isNumeral = c.numeral := by
    rw [Component.text, List.append_assoc, List.takeWhile_append_of_pos c.chars, hu, List.cons_append,
      List.takeWhile_cons_of_neg (by simp [hstop]), List.append_nil]
  have hend : rest.takeWhile (!isNumeral ·) = [] ∧ rest.dropWhile (!isNumeral ·) = rest := by
    cases rest with
    | nil => exact ⟨rfl, rfl⟩
    | cons y rest => simp [h y rfl]
  unfold round
  simp only [htail, hnumeral]
  rw [List.takeWhile_append_of_pos hunit, List.dropWhile_append_of_pos hunit, hend.1, hend.2, List.append_nil,
    c.component_eq text, if_neg (by simp [Component.text, hx]), if_neg (by simp [hu]), if_neg (by simp [hx])]
  cases c.value? with
  | none => rfl
  | some part => cases hadd : total.add? part <;> simp [hadd]

/-- A round ends the scan with the sum at the end of the text, fails, or takes a component. -/
theorem round_cases (text : String) (total : Span) (rest : List Char) :
    rest = [] ∧ round text total rest = .inl (.ok total) ∨ (∃ e, round text total rest = .inl (.error e)) ∨
      ∃ (c : Component) (sum : Span) (rest' : List Char), rest = c.text ++ rest' ∧
        round text total rest = .inr (sum, rest') := by
  have hchars : ∀ c ∈ rest.takeWhile isNumeral, isNumeral c = true := fun c hc => List.mem_takeWhile_imp hc
  unfold round
  dsimp only
  split
  · next hempty => exact .inl ⟨List.isEmpty_iff.1 hempty, rfl⟩
  split
  · exact .inr (.inl ⟨_, rfl⟩)
  split
  · exact .inr (.inl ⟨_, rfl⟩)
  split
  · exact .inr (.inl ⟨_, rfl⟩)
  · exact .inr (.inl ⟨_, rfl⟩)
  · next part hpart =>
    cases total.add? part with
    | none => exact .inr (.inl ⟨_, rfl⟩)
    | some sum =>
      obtain ⟨c, hnumeral, hunit⟩ := exists_component hchars hpart
      refine .inr (.inr ⟨c, sum, _, ?_, rfl⟩)
      rw [Component.text, hnumeral, hunit, List.append_assoc, List.takeWhile_append_dropWhile,
        List.takeWhile_append_dropWhile]

theorem length_lt_of_round (h : round text total rest = .inr (sum, rest')) : rest'.length < rest.length := by
  rcases round_cases text total rest with ⟨-, hround⟩ | ⟨e, hround⟩ | ⟨c, sum', rest'', htext, hround⟩
  · cases h.symm.trans hround
  · cases h.symm.trans hround
  · cases h.symm.trans hround
    obtain ⟨x, hx, -⟩ := c.isNumeral.digit
    have hpos := List.length_pos_of_mem hx
    rw [htext, Component.text, List.length_append, List.length_append]
    omega

/-- The scan comes to its answer within as many rounds as there are characters, and one more. -/
theorem answerWithin_eq (text : String) {n : Nat} (hn : rest.length < n) (total : Span) :
    answerWithin text n total rest = some (parseFrom text total rest) := by
  induction n generalizing rest total with
  | zero => omega
  | succ n ih =>
    rw [answerWithin, parseFrom_eq]
    cases hround : round text total rest with
    | inl answer => rfl
    | inr next =>
      have hlength := length_lt_of_round hround
      exact ih (by omega) next.1

/-! ## Rows of components -/

/-- How components are written. -/
def written (cs : List Component) : List Char := cs.flatMap (·.text)

/-- The sum of the lengths of components, if each of them is in range. -/
def nanos? (cs : List Component) : Option Nat := (cs.mapM Component.value?).map fun vs => (vs.map (·.nanos)).sum

/-- The sum of components, if each of them and the sum are in range. -/
def total? (cs : List Component) : Option Span := (nanos? cs).bind ofNanos?

variable {cs cs' : List Component}

theorem written_cons (c : Component) (cs : List Component) : written (c :: cs) = c.text ++ written cs := rfl

theorem written_append (cs cs' : List Component) : written (cs ++ cs') = written cs ++ written cs' :=
  List.flatMap_append

theorem starts_written (cs : List Component) : Starts (written cs) := by
  cases cs with
  | nil => nofun
  | cons c cs => exact c.starts (written cs)

theorem nanos?_cons (c : Component) (cs : List Component) :
    nanos? (c :: cs) = c.value?.bind fun v => (nanos? cs).map (v.nanos + ·) := by
  unfold nanos?
  rw [List.mapM_cons]
  cases c.value? with
  | none => rfl
  | some v => cases cs.mapM Component.value? <;> simp

theorem nanos?_append (cs cs' : List Component) :
    nanos? (cs ++ cs') = (nanos? cs).bind fun n => (nanos? cs').map (n + ·) := by
  induction cs with
  | nil =>
    have hnil : nanos? [] = some 0 := rfl
    rw [List.nil_append, hnil]
    cases nanos? cs' <;> simp
  | cons c cs ih =>
    rw [List.cons_append, nanos?_cons, nanos?_cons, ih]
    cases c.value? with
    | none => rfl
    | some v => cases nanos? cs <;> cases nanos? cs' <;> simp [Nat.add_assoc]

theorem nanos?_perm (h : cs.Perm cs') : nanos? cs = nanos? cs' := by
  induction h with
  | nil => rfl
  | cons c _ ih => rw [nanos?_cons, nanos?_cons, ih]
  | swap c d cs =>
    simp only [nanos?_cons]
    cases c.value? <;> cases d.value? <;> cases nanos? cs <;> simp [Nat.add_left_comm]
  | trans _ _ ih ih' => exact ih.trans ih'

theorem ofNanos?_of_le {n m : Nat} (h : ofNanos? n = none) (hle : n ≤ m) : ofNanos? m = none := by
  unfold ofNanos? at h ⊢
  split at h
  · cases h
  · exact dif_neg (by omega)

theorem nanos_of_ofNanos? {n : Nat} (h : ofNanos? n = some r) : r.nanos = n := by
  unfold ofNanos? at h
  split at h
  · cases h
    rfl
  · cases h

/-- What the scan makes of a row of components. -/
theorem parseFrom_written (text : String) (total : Span) (cs : List Component) :
    parseFrom text total (written cs) =
      match (nanos? cs).bind fun n => ofNanos? (total.nanos + n) with
      | some r => .ok r
      | none => .error (.outOfRange text) := by
  induction cs generalizing total with
  | nil =>
    have htotal : ofNanos? total.nanos = some total := dif_pos total.nanos_lt
    rw [parseFrom_eq]
    simp [written, round, nanos?, htotal]
  | cons c cs ih =>
    rw [parseFrom_eq, written_cons, round_text c (starts_written cs), nanos?_cons]
    cases c.value? with
    | none => rfl
    | some v =>
      cases hadd : total.add? v with
      | none =>
        -- a sum that is out of range stays so, whatever follows
        have hout (n : Nat) : ofNanos? (total.nanos + (v.nanos + n)) = none :=
          ofNanos?_of_le hadd (by omega)
        cases nanos? cs <;> simp [hadd, hout]
      | some sum =>
        have hsum : sum.nanos = total.nanos + v.nanos := nanos_of_ofNanos? hadd
        simp only [Option.bind_some, hadd]
        rw [ih sum, hsum]
        cases nanos? cs <;> simp [Nat.add_assoc]

/-- What the scan accepts is a row of components. -/
theorem exists_written_of_parseFrom (h : parseFrom text total rest = .ok r) : ∃ cs, rest = written cs := by
  induction hn : rest.length using Nat.strongRecOn generalizing total rest with
  | _ n ih =>
    rw [parseFrom_eq] at h
    rcases round_cases text total rest with ⟨hend, -⟩ | ⟨e, hround⟩ | ⟨c, sum, rest', hrest, hround⟩
    · exact ⟨[], hend⟩
    · rw [hround] at h
      cases h
    · rw [hround] at h
      obtain ⟨cs, hcs⟩ := ih _ (hn ▸ length_lt_of_round hround) h rfl
      exact ⟨c :: cs, by rw [hrest, hcs, written_cons]⟩

/-! ## Texts -/

theorem two_le_length_text (c : Component) : 2 ≤ c.text.length := by
  obtain ⟨x, hx, -⟩ := c.isNumeral.digit
  have hpos := List.length_pos_of_mem hx
  have hunit : 1 ≤ c.unit.text.length := by cases c.unit <;> decide
  rw [Component.text, List.length_append]
  omega

theorem length_written_ge (hcs : cs ≠ []) : 2 ≤ (written cs).length := by
  obtain ⟨c, cs, rfl⟩ := List.exists_cons_of_ne_nil hcs
  have hc := two_le_length_text c
  rw [written_cons, List.length_append]
  omega

theorem not_isBlank_of_isDigit {c : Char} (h : c.isDigit = true) : Text.isBlank c = false := by
  have hten : ∀ n < 58, 48 ≤ n → Text.isBlank (Char.ofNat n) = false := by decide
  have hrange : 48 ≤ c.toNat ∧ c.toNat ≤ 57 := by
    simpa [Char.isDigit, UInt32.le_iff_toNat_le] using h
  rw [← Char.ofNat_toNat c]
  exact hten _ (by omega) hrange.1

theorem not_isBlank_of_mem_text {c : Component} {x : Char} (hx : x ∈ c.text) : Text.isBlank x = false := by
  rcases List.mem_append.1 hx with hx | hx
  · rcases c.isNumeral.chars x hx with hdigit | rfl
    · exact not_isBlank_of_isDigit hdigit
    · decide
  · have hunit : (c.unit.text.all fun x => !Text.isBlank x) = true := by cases c.unit <;> decide
    simpa using List.all_eq_true.1 hunit x hx

/-- Rows of components have no blanks around them. -/
theorem trim_of_written {s : String} (h : s.toList = written cs) : Text.trim s = s := by
  refine Text.trim_eq_self fun x hx => ?_
  obtain ⟨c, -, hc⟩ := List.mem_flatMap.1 (h ▸ hx)
  exact not_isBlank_of_mem_text hc

theorem ne_zero_of_written {s : String} (h : s.toList = written cs) (hcs : cs ≠ []) : s ≠ "" ∧ s ≠ "0" := by
  have hlength := length_written_ge hcs
  rw [← h] at hlength
  constructor
  · rintro rfl
    exact absurd hlength (by decide)
  · rintro rfl
    exact absurd hlength (by decide)

/-- What is made of a text that is a row of components. -/
theorem parse_of_written {s : String} (h : (Text.trim s).toList = written cs) (hcs : cs ≠ []) :
    parse s = match total? cs with
      | some r => .ok r
      | none => .error (.outOfRange (Text.trim s)) := by
  obtain ⟨hempty, hzero⟩ := ne_zero_of_written h hcs
  unfold parse
  dsimp only
  rw [if_neg (by simpa using hempty), if_neg hzero, h, parseFrom_written, total?]
  simp [zero]

theorem parse_eq_ok_iff (s : String) (r : Span) : parse s = .ok r ↔ Text.trim s = "0" ∧ r = zero ∨
    ∃ cs, cs ≠ [] ∧ (Text.trim s).toList = written cs ∧ total? cs = some r := by
  constructor
  · intro h
    have hparse := h
    unfold parse at h
    dsimp only at h
    split at h
    · cases h
    · next hempty =>
      split at h
      · next hzero =>
        cases h
        exact .inl ⟨hzero, rfl⟩
      · obtain ⟨cs, hcs⟩ := exists_written_of_parseFrom h
        have hne : cs ≠ [] := by
          rintro rfl
          rw [written, List.flatMap_nil, String.toList_eq_nil_iff] at hcs
          exact hempty (by simp [hcs])
        rw [parse_of_written hcs hne] at hparse
        refine .inr ⟨cs, hne, hcs, ?_⟩
        cases htotal : total? cs with
        | none => simp [htotal] at hparse
        | some t => simpa [htotal] using hparse
  · rintro (⟨hzero, rfl⟩ | ⟨cs, hne, hcs, htotal⟩)
    · unfold parse
      rw [hzero]
      rfl
    · rw [parse_of_written hcs hne, htotal]

theorem total?_append {cs cs' : List Component} {a b : Span} (ha : total? cs = some a)
    (hb : total? cs' = some b) : total? (cs ++ cs') = a.add? b := by
  obtain ⟨n, hn, hna⟩ := Option.bind_eq_some_iff.1 ha
  obtain ⟨m, hm, hmb⟩ := Option.bind_eq_some_iff.1 hb
  rw [total?, nanos?_append, hn, hm, add?, nanos_of_ofNanos? hna, nanos_of_ofNanos? hmb]
  rfl

theorem total?_perm (h : cs.Perm cs') : total? cs = total? cs' := by
  rw [total?, total?, nanos?_perm h]

theorem exists_row {s : String} (h : parse s = .ok r) (htrim : Text.trim s = s) (hzero : s ≠ "0") :
    ∃ cs, cs ≠ [] ∧ s.toList = written cs ∧ total? cs = some r := by
  rcases (parse_eq_ok_iff s r).1 h with ⟨h0, -⟩ | hrow
  · exact absurd (htrim ▸ h0) hzero
  · rwa [htrim] at hrow

/-- A text is accepted exactly if without the blanks around it, it is `0`, or a row of components whose
values and whose sum are in range; then that sum is its length. So the order of the components does not
matter, texts that are put together are accepted with the sum if it is in range, and the scan always comes
to its answer, within as many rounds as there are characters and one more. -/
theorem parse_sums_components :
    (∀ s r, parse s = .ok r ↔ Text.trim s = "0" ∧ r = zero ∨
      ∃ cs, cs ≠ [] ∧ (Text.trim s).toList = written cs ∧ total? cs = some r) ∧
    (∀ cs cs', cs.Perm cs' → ∀ s s', (Text.trim s).toList = written cs → (Text.trim s').toList = written cs' →
      (parse s').toOption = (parse s).toOption) ∧
    (∀ a b x y, parse a = .ok x → parse b = .ok y → Text.trim a = a → Text.trim b = b → a ≠ "0" → b ≠ "0" →
      parse (a ++ b) = match x.add? y with
        | some sum => .ok sum
        | none => .error (.outOfRange (a ++ b))) ∧
    ∀ s, Text.trim s ≠ "" → Text.trim s ≠ "0" →
      answerWithin (Text.trim s) ((Text.trim s).length + 1) zero (Text.trim s).toList = some (parse s) := by
  refine ⟨parse_eq_ok_iff, fun cs cs' hperm s s' hs hs' => ?_, fun a b x y ha hb hta htb hna hnb => ?_,
    fun s hempty hzero => ?_⟩
  · by_cases hcs : cs = []
    · obtain rfl : cs' = [] := List.perm_nil.1 (hcs ▸ hperm.symm)
      have hsame : Text.trim s' = Text.trim s := String.toList_inj.1 (hs'.trans (hcs ▸ hs.symm))
      simp only [parse, hsame]
    · have hcs' : cs' ≠ [] := fun hnil => hcs (List.perm_nil.1 (hnil ▸ hperm))
      rw [parse_of_written hs hcs, parse_of_written hs' hcs', total?_perm hperm]
      cases total? cs' <;> rfl
  · obtain ⟨cs, hcs, hwa, hsa⟩ := exists_row ha hta hna
    obtain ⟨cs', -, hwb, hsb⟩ := exists_row hb htb hnb
    have hwritten : (a ++ b).toList = written (cs ++ cs') := by
      rw [String.toList_append, hwa, hwb, written_append]
    have htrim := trim_of_written hwritten
    rw [parse_of_written (htrim.symm ▸ hwritten) (by simp [hcs]), total?_append hsa hsb, htrim]
  · have hlength : (Text.trim s).toList.length < (Text.trim s).length + 1 := by
      rw [String.length_toList]
      omega
    rw [answerWithin_eq _ hlength, parse, if_neg (by simpa using hempty), if_neg hzero]

/-! ## A sum in two orders -/

/-- An hour. -/
def oneHour : Component := ⟨['1'], .hour, by simp, by simp, by simp⟩

/-- Half an hour. -/
def thirtyMinutes : Component := ⟨['3', '0'], .minute, by simp, by simp, by simp⟩

theorem parse_sums_hours : parse "1h30m" = .ok (.seconds 5400) ∧ parse "30m1h" = .ok (.seconds 5400) ∧
    parse "1h30m30m1h" = .ok (.seconds 10800) := by
  obtain ⟨haccepts, horder, hsum, -⟩ := parse_sums_components
  have hrow : "1h30m".toList = written [oneHour, thirtyMinutes] := by decide
  have hrow' : "30m1h".toList = written [thirtyMinutes, oneHour] := by decide
  have htrim := trim_of_written hrow
  have htrim' := trim_of_written hrow'
  have htotal : total? [oneHour, thirtyMinutes] = some (.seconds 5400) := by decide +kernel
  have hfirst : parse "1h30m" = .ok (.seconds 5400) :=
    (haccepts _ _).2 (.inr ⟨_, List.cons_ne_nil _ _, htrim.symm ▸ hrow, htotal⟩)
  have hsecond : parse "30m1h" = .ok (.seconds 5400) := by
    refine ok_of_toOption ?_
    rw [horder _ _ (.swap ..) _ _ (htrim.symm ▸ hrow) (htrim'.symm ▸ hrow'), hfirst]
    rfl
  refine ⟨hfirst, hsecond, ?_⟩
  have hboth := hsum _ _ _ _ hfirst hsecond htrim htrim' (by decide) (by decide)
  have hadd : add? (.seconds 5400) (.seconds 5400) = some (.seconds 10800) := by decide
  rw [hadd] at hboth
  exact hboth

end Span

end BareMetal
