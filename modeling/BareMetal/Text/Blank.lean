/-!
# Blank characters

The characters with the Unicode property White_Space, and texts with the blanks at both ends
taken off.
-/

namespace BareMetal.Text

/-- The Unicode property White_Space. -/
def isBlank (c : Char) : Bool :=
  ('\x09' ≤ c && c ≤ '\x0d') || c == ' ' || c == '\u0085' || c == '\u00a0' || c == '\u1680' ||
    ('\u2000' ≤ c && c ≤ '\u200a') || c == '\u2028' || c == '\u2029' || c == '\u202f' ||
    c == '\u205f' || c == '\u3000'

/-- The characters without the blanks at both ends. -/
def trimChars (cs : List Char) : List Char :=
  ((cs.dropWhile isBlank).reverse.dropWhile isBlank).reverse

/-- The text without the blanks at both ends. -/
def trim (s : String) : String := .ofList (trimChars s.toList)

theorem dropWhile_isBlank_eq_nil_iff {cs : List Char} :
    cs.dropWhile isBlank = [] ↔ cs.all isBlank = true := by
  induction cs with
  | nil => simp
  | cons c cs ih => by_cases hc : isBlank c = true <;> simp [hc, ih]

/-- A text is empty without the blanks at both ends if there is nothing else in it. -/
theorem trim_eq_empty_iff {s : String} : trim s = "" ↔ ∀ c ∈ s.toList, isBlank c = true := by
  have hrest : (s.toList.dropWhile isBlank).all isBlank = s.toList.all isBlank := by
    have h := List.any_dropWhile (p := isBlank) (l := s.toList)
    simpa [List.any_eq_not_all_not] using h
  rw [trim, String.ofList_eq_empty_iff, trimChars, List.reverse_eq_nil_iff, dropWhile_isBlank_eq_nil_iff,
    List.all_reverse, hrest, List.all_eq_true]

theorem dropWhile_isBlank_eq_self {cs : List Char} (h : ∀ c ∈ cs, isBlank c = false) :
    cs.dropWhile isBlank = cs := by
  cases cs with
  | nil => rfl
  | cons c cs => simp [h c List.mem_cons_self]

theorem trim_eq_self {s : String} (h : ∀ c ∈ s.toList, isBlank c = false) : trim s = s := by
  have hreverse : ∀ c ∈ s.toList.reverse, isBlank c = false := fun c hc => h c (List.mem_reverse.1 hc)
  rw [trim, trimChars, dropWhile_isBlank_eq_self h, dropWhile_isBlank_eq_self hreverse, List.reverse_reverse,
    String.ofList_toList]

/-- A lower-case copy in which only ASCII letters change. -/
def lowerAscii (s : String) : String := .ofList (s.toList.map Char.toLower)

end BareMetal.Text
