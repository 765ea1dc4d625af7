import Calculator.Proofs.Cutting
import Mathlib.Data.Nat.Find

/-!
# Texts that cannot be cut

Whether a character can stand in a text is seen from the character and the one behind it. Cutting a
text fails at the first character that cannot, and a text without such a character has tokens.
-/

namespace Calculator.Token

open Text

/-! ### Readable characters -/

/-- The punctuation marks that are tokens by themselves. -/
def marks : List Char := ['(', ')', '{', '}', '[', ']', '^', '+', '-', '/', '*', '!', '=']

/-- The character `c` can stand in a text, with `next?` behind it: it is a space, a digit, a letter
or a mark, or else a colon with an equals sign behind it. -/
def Readable (c : Char) (next? : Option Char) : Prop :=
  c ∈ [' ', '\t', '\n'] ∨ isDigit c = true ∨ isLetter c = true ∨ c ∈ marks ∨
    c = ':' ∧ next? = some '='

/-- What stands at offset `i`, if anything does, can stand there. -/
def ReadableAt (cs : List Char) (i : Nat) : Prop := ∀ c ∈ cs[i]?, Readable c cs[i + 1]?

/-- The first character that cannot stand where it does is `c` at offset `pos`. -/
structure FirstUnreadable (cs : List Char) (pos : Nat) (c : Char) : Prop where
  here : cs[pos]? = some c
  unreadable : ¬ Readable c cs[pos + 1]?
  before : ∀ i < pos, ReadableAt cs i

variable {c c' : Char} {k : Kind} {w rest cs : List Char} {next? : Option Char} {i n pos pos' : Nat}

lemma isSpace_iff_mem : isSpace c = true ↔ c ∈ [' ', '\t', '\n'] := by
  simp [isSpace, or_assoc]

lemma isSome_ofMark?_iff : (Kind.ofMark? c).isSome = true ↔ c ∈ marks := by
  constructor
  · intro h
    unfold Kind.ofMark? at h
    split at h
    all_goals first | decide | cases h
  · intro h
    simp only [marks, List.mem_cons, List.not_mem_nil, or_false] at h
    rcases h with rfl | rfl | rfl | rfl | rfl | rfl | rfl | rfl | rfl | rfl | rfl | rfl | rfl
    all_goals rfl

namespace Readable

lemma of_isSpace (h : isSpace c = true) : Readable c next? := .inl (isSpace_iff_mem.mp h)

lemma of_isDigit (h : isDigit c = true) : Readable c next? := .inr (.inl h)

lemma of_isLetter (h : isLetter c = true) : Readable c next? := .inr (.inr (.inl h))

lemma of_ofMark? (h : Kind.ofMark? c = some k) : Readable c next? :=
  .inr (.inr (.inr (.inl (isSome_ofMark?_iff.mp (by rw [h]; rfl)))))

lemma colon : Readable ':' (some '=') := .inr (.inr (.inr (.inr ⟨rfl, rfl⟩)))

end Readable

/-- No character of a token is one that cannot stand where it does. -/
lemma Kind.Spelled.readableAt (h : k.Spelled w) (cs : List Char) (hi : i < w.length) :
    ReadableAt (w ++ cs) i := by
  intro d hd
  rw [List.getElem?_append_left hi] at hd
  have hmem : d ∈ w := List.mem_of_getElem? hd
  cases h with
  | @number c w hc hw =>
    have hdigits : ∀ d ∈ c :: w, isDigit d = true := List.forall_mem_cons.mpr ⟨hc, hw⟩
    exact .of_isDigit (hdigits d hmem)
  | @keyword k _ hw => exact .of_isLetter (k.isLetter_of_mem_text d (hw ▸ hmem))
  | @identifier c w hc hw _ =>
    have hword : ∀ d ∈ c :: w, isLetter d = true ∨ isDigit d = true :=
      List.forall_mem_cons.mpr ⟨.inl hc, hw⟩
    exact (hword d hmem).elim .of_isLetter .of_isDigit
  | becomes =>
    -- what follows matters for the colon only, and the equals sign of the token follows it
    rcases i with _ | _ | i
    · cases hd
      exact .colon
    · cases hd
      exact .of_ofMark? rfl
    · exact absurd hi (by simp)
  | mark hc =>
    obtain rfl := List.mem_singleton.mp hmem
    exact .of_ofMark? hc

lemma Longest.readableAt (h : Longest c rest k n) (hi : i < n + 1) : ReadableAt (c :: rest) i := by
  have hsplit : c :: rest = (c :: rest.take n) ++ rest.drop n := by
    rw [List.cons_append, List.take_append_drop]
  have hlength : (c :: rest.take n).length = n + 1 := by
    rw [List.length_cons, List.length_take_of_le h.le_length]
  rw [hsplit]
  exact h.spelled.readableAt _ (hlength ▸ hi)

/-- A token can start with every readable character that is not a space. -/
lemma not_readable_of_lexeme? (hspace : ¬ isSpace c = true) (h : lexeme? c rest = none) :
    ¬ Readable c rest.head? := by
  rintro (hc | hc | hc | hc | ⟨rfl, hnext⟩)
  · exact hspace (isSpace_iff_mem.mpr hc)
  · rw [lexeme?_of_isDigit hc] at h
    cases h
  · rw [lexeme?_of_isLetter hc] at h
    cases h
  · obtain ⟨k, hk⟩ := Option.isSome_iff_exists.mp (isSome_ofMark?_iff.mpr hc)
    rw [lexeme?_of_ofMark? hk] at h
    cases h
  · simp [lexeme?, hnext] at h

/-! ### The first character that is not readable -/

lemma readableAt_drop_iff : ReadableAt (cs.drop n) i ↔ ReadableAt cs (n + i) := by
  rw [ReadableAt, ReadableAt, List.getElem?_drop, List.getElem?_drop]
  exact Iff.rfl

namespace FirstUnreadable

lemma not_readableAt (h : FirstUnreadable cs pos c) : ¬ ReadableAt cs pos :=
  fun hread => h.unreadable (hread c h.here)

lemma unique (h : FirstUnreadable cs pos c) (h' : FirstUnreadable cs pos' c') :
    pos = pos' ∧ c = c' := by
  obtain rfl : pos = pos' := by
    rcases Nat.lt_trichotomy pos pos' with hlt | heq | hgt
    · exact absurd (h'.before pos hlt) h.not_readableAt
    · exact heq
    · exact absurd (h.before pos' hgt) h'.not_readableAt
  exact ⟨rfl, Option.some.inj (h.here.symm.trans h'.here)⟩

lemma exists_of_not_readableAt (h : ¬ ReadableAt cs i) : ∃ pos c, FirstUnreadable cs pos c := by
  classical
  have hex : ∃ j, ¬ ReadableAt cs j := ⟨i, h⟩
  obtain ⟨pos, hpos, hbefore⟩ : ∃ pos, ¬ ReadableAt cs pos ∧ ∀ j < pos, ReadableAt cs j :=
    ⟨Nat.find hex, Nat.find_spec hex, fun j hj => not_not.mp (Nat.find_min hex hj)⟩
  unfold ReadableAt at hpos
  push Not at hpos
  obtain ⟨c, hc, hunreadable⟩ := hpos
  exact ⟨pos, c, hc, hunreadable, hbefore⟩

/-- Behind characters that are readable, the first one that is not is found in the rest. -/
lemma drop_iff (h : ∀ j < n, ReadableAt cs j) :
    FirstUnreadable (cs.drop n) i c ↔ FirstUnreadable cs (n + i) c := by
  constructor
  · rintro ⟨hhere, hunreadable, hbefore⟩
    rw [List.getElem?_drop] at hhere hunreadable
    refine ⟨hhere, hunreadable, fun j hj => ?_⟩
    by_cases hjn : j < n
    · exact h j hjn
    · obtain ⟨m, rfl⟩ := Nat.exists_eq_add_of_le (Nat.not_lt.mp hjn)
      exact readableAt_drop_iff.mp (hbefore m (Nat.lt_of_add_lt_add_left hj))
  · rintro ⟨hhere, hunreadable, hbefore⟩
    refine ⟨?_, ?_, fun j hj => readableAt_drop_iff.mpr (hbefore _ (Nat.add_lt_add_left hj n))⟩
    · rwa [List.getElem?_drop]
    · rwa [List.getElem?_drop]

/-- Counted from anywhere, the offset is the same whether the readable characters at the front are
passed over or not. -/
lemma exists_drop_iff (h : ∀ j < n, ReadableAt cs j) :
    (∃ i, FirstUnreadable (cs.drop n) i c ∧ pos' = pos + n + i) ↔
      ∃ i, FirstUnreadable cs i c ∧ pos' = pos + i := by
  constructor
  · rintro ⟨i, hi, rfl⟩
    exact ⟨n + i, (drop_iff h).mp hi, Nat.add_assoc pos n i⟩
  · rintro ⟨i, hi, rfl⟩
    have hle : n ≤ i := Nat.not_lt.mp fun hlt => hi.not_readableAt (h i hlt)
    obtain ⟨j, rfl⟩ := Nat.exists_eq_add_of_le hle
    exact ⟨j, (drop_iff h).mpr hi, (Nat.add_assoc pos n j).symm⟩

/-- Of what stands behind the character, it matters only whether it completes a colon. -/
lemma of_take_eq {cs' : List Char} (h : FirstUnreadable cs pos c)
    (htake : cs'.take (pos + 1) = cs.take (pos + 1))
    (hcolon : c = ':' → cs'[pos + 1]? ≠ some '=') : FirstUnreadable cs' pos c := by
  have hsame {j : Nat} (hj : j < pos + 1) : cs'[j]? = cs[j]? := by
    rw [← List.getElem?_take_of_lt hj, htake, List.getElem?_take_of_lt hj]
  refine ⟨(hsame (Nat.lt_succ_self pos)).trans h.here, ?_, fun j hj => ?_⟩
  · rintro (hc | hc | hc | hc | ⟨rfl, hnext⟩)
    · exact h.unreadable (.inl hc)
    · exact h.unreadable (.of_isDigit hc)
    · exact h.unreadable (.of_isLetter hc)
    · exact h.unreadable (.inr (.inr (.inr (.inl hc))))
    · exact hcolon rfl hnext
  · rw [ReadableAt, hsame (Nat.lt_succ_of_lt hj), hsame (Nat.succ_lt_succ hj)]
    exact h.before j hj

end FirstUnreadable

/-! ### Where cutting fails -/

lemma scan_eq_error_iff {done : List Token} {e : LexError} :
    scan pos done cs = .error e ↔ ∃ i, FirstUnreadable cs i e.char ∧ e.pos = pos + i := by
  induction pos, done, cs using scan.induct with
  | case1 pos done =>
    rw [scan]
    constructor
    · intro hok
      cases hok
    · rintro ⟨i, hi, -⟩
      cases hi.here
  | case2 pos done c rest hspace ih =>
    have hread : ∀ j < 1, ReadableAt (c :: rest) j := by
      intro j hj d hd
      obtain rfl := Nat.lt_one_iff.mp hj
      cases hd
      exact .of_isSpace hspace
    rw [scan, if_pos hspace, ih]
    exact FirstUnreadable.exists_drop_iff hread
  | case3 pos done c rest hspace hlex =>
    have hfirst : FirstUnreadable (c :: rest) 0 c := by
      refine ⟨rfl, ?_, fun j hj => absurd hj (Nat.not_lt_zero j)⟩
      have hunreadable := not_readable_of_lexeme? hspace hlex
      rwa [List.head?_eq_getElem?] at hunreadable
    rw [scan, if_neg hspace, hlex]
    constructor
    · rintro ⟨⟩
      exact ⟨0, hfirst, rfl⟩
    · rintro ⟨i, hi, hpos⟩
      obtain ⟨rfl, hchar⟩ := hfirst.unique hi
      obtain ⟨char, pos'⟩ := e
      rw [hchar, ← Nat.add_zero pos, ← hpos]
  | case4 pos done c rest hspace k n hlex token ih =>
    have hlongest := lexeme?_eq_some_iff.mp hlex
    rw [scan, if_neg hspace, hlex]
    have hpass : (∃ i, FirstUnreadable ((c :: rest).drop (n + 1)) i e.char ∧
        e.pos = pos + (n + 1) + i) ↔ ∃ i, FirstUnreadable (c :: rest) i e.char ∧ e.pos = pos + i :=
      FirstUnreadable.exists_drop_iff fun j hj => hlongest.readableAt hj
    rw [List.drop_succ_cons, ← Nat.add_assoc, Nat.add_right_comm pos n 1] at hpass
    exact ih.trans hpass

/-- Cutting a text fails at the first character that cannot stand where it does, and a text without
such a character has tokens. What stands behind the character has no part in it, except that an
equals sign completes a colon. -/
theorem ofText_eq_error_iff (text : String) :
    (∀ c pos, ofText text = .error ⟨c, pos⟩ ↔ FirstUnreadable text.toList pos c) ∧
      ((∃ ts, ofText text = .ok ts) ↔ ∀ i, ReadableAt text.toList i) ∧
      ∀ c pos text', ofText text = .error ⟨c, pos⟩ →
        text'.toList.take (pos + 1) = text.toList.take (pos + 1) →
        (c = ':' → text'.toList[pos + 1]? ≠ some '=') → ofText text' = .error ⟨c, pos⟩ := by
  have hiff (text : String) (c : Char) (pos : Nat) :
      ofText text = .error ⟨c, pos⟩ ↔ FirstUnreadable text.toList pos c := by
    rw [ofText, scan_eq_error_iff]
    simp
  refine ⟨hiff text, ⟨?_, fun hread => ?_⟩, fun c pos text' h htake hcolon => ?_⟩
  · rintro ⟨ts, hts⟩ i
    by_contra hi
    obtain ⟨pos, c, hfirst⟩ := FirstUnreadable.exists_of_not_readableAt hi
    rw [(hiff text c pos).mpr hfirst] at hts
    cases hts
  · cases htext : ofText text with
    | ok ts => exact ⟨ts, rfl⟩
    | error e => exact absurd (hread e.pos) ((hiff text e.char e.pos).mp htext).not_readableAt
  · exact (hiff text' c pos).mpr (((hiff text c pos).mp h).of_take_eq htake hcolon)

/-- In `é9:==:+`, the first colon is completed and the second one is not, whatever comes later. -/
theorem ofText_eq_error_iff_colon :
    FirstUnreadable "é9:==:+".toList 5 ':' ∧
      ofText "é9:==:" = .error ⟨':', 5⟩ ∧ ofText "é9:==:$ :=" = .error ⟨':', 5⟩ := by
  obtain ⟨herror, -, hlocal⟩ := ofText_eq_error_iff "é9:==:+"
  have h : ofText "é9:==:+" = .error ⟨':', 5⟩ := by decide +kernel
  exact ⟨(herror ':' 5).mp h, hlocal ':' 5 "é9:==:" h (by decide) (by decide),
    hlocal ':' 5 "é9:==:$ :=" h (by decide) (by decide)⟩

end Calculator.Token
