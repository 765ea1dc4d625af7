import Calculator.Text.CharSet

/-!
# Blanks

The characters that separate words and may be stripped from the ends of a text. The separators
U+001C to U+001F count, the zero-width characters do not.
-/

namespace Calculator.Text

/-- The blank characters. -/
def blanks : CharSet where
  intervals := [
  (0x9, 0xd), (0x1c, 0x20), (0x85, 0x85), (0xa0, 0xa0), (0x1680, 0x1680), (0x2000, 0x200a),
  (0x2028, 0x2029), (0x202f, 0x202f), (0x205f, 0x205f), (0x3000, 0x3000)]

/-- Whether a character is blank. -/
def isBlank (c : Char) : Bool := blanks.contains c

/-- Whether a character is white space in the sense of Unicode: a blank that is none of the
separators U+001C to U+001F. -/
def isWhiteSpace (c : Char) : Bool := isBlank c && !(0x1c ≤ c.toNat && c.toNat ≤ 0x1f)

/-- The characters from the first one on that is not in `p`. -/
def dropLeading (p : Char → Bool) (text : String) : String :=
  String.ofList (text.toList.dropWhile p)

/-- The characters up to the last one that is not in `p`. -/
def dropTrailing (p : Char → Bool) (text : String) : String :=
  String.ofList (text.toList.reverse.dropWhile p).reverse

/-- A text without the blanks at its start. -/
def stripStart (text : String) : String := dropLeading isBlank text

/-- A text without the blanks at both ends. -/
def strip (text : String) : String := dropTrailing isBlank (stripStart text)

/-- Whether a text holds nothing but blanks. -/
def allBlank (text : String) : Bool := text.toList.all isBlank

/-- The first run of characters that are not blank. -/
def firstWord? (text : String) : Option String :=
  match text.toList.dropWhile isBlank with
  | [] => none
  | c :: rest => some (String.ofList (c :: rest.takeWhile fun d => !isBlank d))

theorem allBlank_iff {text : String} :
    allBlank text = true ↔ ∀ c ∈ text.toList, isBlank c = true := by
  simp [allBlank]

/-! ### Stripped texts -/

private theorem head?_dropWhile {p : Char → Bool} {cs : List Char} :
    ∀ c ∈ (cs.dropWhile p).head?, p c = false := by
  intro c hc
  have h := List.head?_dropWhile_not p cs
  rw [Option.mem_def] at hc
  rwa [hc] at h

theorem dropLeading_of_head? {p : Char → Bool} {text : String}
    (h : ∀ c ∈ text.toList.head?, p c = false) : dropLeading p text = text := by
  have hdrop : text.toList.dropWhile p = text.toList := by
    cases hcs : text.toList with
    | nil => rfl
    | cons c cs =>
      rw [hcs] at h
      rw [List.dropWhile_cons_of_neg (by simp [h c rfl])]
  rw [dropLeading, hdrop, String.ofList_toList]

theorem dropTrailing_of_getLast? {p : Char → Bool} {text : String}
    (h : ∀ c ∈ text.toList.getLast?, p c = false) : dropTrailing p text = text := by
  have hdrop : text.toList.reverse.dropWhile p = text.toList.reverse := by
    rw [← List.head?_reverse] at h
    cases hcs : text.toList.reverse with
    | nil => rfl
    | cons c cs =>
      rw [hcs] at h
      rw [List.dropWhile_cons_of_neg (by simp [h c rfl])]
  rw [dropTrailing, hdrop, List.reverse_reverse, String.ofList_toList]

/-- A text with no blank at an end is stripped already. -/
theorem strip_of_ends {text : String} (hfirst : ∀ c ∈ text.toList.head?, isBlank c = false)
    (hlast : ∀ c ∈ text.toList.getLast?, isBlank c = false) : strip text = text := by
  rw [strip, stripStart, dropLeading_of_head? hfirst, dropTrailing_of_getLast? hlast]

theorem getLast?_strip {text : String} :
    ∀ c ∈ (strip text).toList.getLast?, isBlank c = false := by
  rw [strip, dropTrailing, String.toList_ofList, List.getLast?_reverse]
  exact head?_dropWhile

/-- Stripping the end keeps the first character, unless nothing is left. -/
theorem head?_strip {text : String} : ∀ c ∈ (strip text).toList.head?, isBlank c = false := by
  intro c hc
  rw [strip, dropTrailing, String.toList_ofList, stripStart, dropLeading,
    String.toList_ofList] at hc
  have hsuffix := List.dropWhile_suffix (l := (text.toList.dropWhile isBlank).reverse) isBlank
  have hfront := List.reverse_prefix.mpr hsuffix
  rw [List.reverse_reverse] at hfront
  obtain ⟨rest, hrest⟩ := hfront
  have hmem : c ∈ (text.toList.dropWhile isBlank).head? := by
    rw [Option.mem_def] at hc ⊢
    rw [← hrest, List.head?_append, hc]
    rfl
  exact head?_dropWhile c hmem

end Calculator.Text
