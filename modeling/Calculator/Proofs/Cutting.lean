import Calculator.Token.Lexing
import Mathlib.Tactic.Common

/-!
# Cutting a text into tokens

The tokens of a text are described without the procedure that finds them: every token is spelled as
its kind is, what stands between tokens is space, and no two tokens that touch could be read as one.
Exactly one list of tokens is like that if the text has tokens at all, and it is the one that
cutting from left to right gives.
-/

namespace Calculator

open Text

/-! ### Classes of characters -/

section Char

variable {c : Char} {k : Token.Kind}

lemma isDigit_iff : isDigit c = true ↔ 48 ≤ c.toNat ∧ c.toNat ≤ 57 := by
  simp only [isDigit, Bool.and_eq_true, decide_eq_true_eq, Char.le_def, UInt32.le_iff_toNat_le]
  exact Iff.rfl

lemma toNat_of_isAlpha (h : c.isAlpha = true) : 65 ≤ c.toNat ∧ c.toNat ≤ 122 := by
  delta Char.isAlpha Char.isUpper Char.isLower at h
  have upper : 'A'.val.toNat = 65 ∧ 'Z'.val.toNat = 90 := ⟨rfl, rfl⟩
  have lower : 'a'.val.toNat = 97 ∧ 'z'.val.toNat = 122 := ⟨rfl, rfl⟩
  have toNat_eq : c.toNat = c.val.toNat := rfl
  simp only [Bool.or_eq_true, Bool.and_eq_true, decide_eq_true_eq, UInt32.le_iff_toNat_le,
    ge_iff_le] at h
  omega

lemma isLetter_eq_false_of_isDigit (h : isDigit c = true) : isLetter c = false := by
  obtain ⟨-, hhigh⟩ := isDigit_iff.mp h
  rw [isLetter_of_ascii (by omega), Bool.eq_false_iff]
  intro halpha
  have hlow := (toNat_of_isAlpha halpha).1
  omega

/-- Spaces, marks and the colon are no digits and no letters. -/
lemma not_isWordTail_of_isSpace (h : Token.isSpace c = true) : Token.isWordTail c = false := by
  simp only [Token.isSpace, Bool.or_eq_true, decide_eq_true_eq] at h
  obtain (rfl | rfl) | rfl := h <;> decide

lemma not_isWordTail_of_ofMark? (h : Token.Kind.ofMark? c = some k) :
    Token.isWordTail c = false := by
  unfold Token.Kind.ofMark? at h
  split at h
  all_goals first | decide | cases h

lemma ofMark?_eq_none_of_isSpace (h : Token.isSpace c = true) : Token.Kind.ofMark? c = none := by
  simp only [Token.isSpace, Bool.or_eq_true, decide_eq_true_eq] at h
  obtain (rfl | rfl) | rfl := h <;> decide

lemma ofMark?_eq_none_of_isWordTail (h : Token.isWordTail c = true) :
    Token.Kind.ofMark? c = none := by
  cases hm : Token.Kind.ofMark? c with
  | none => rfl
  | some k => rw [not_isWordTail_of_ofMark? hm] at h; cases h

lemma ne_colon_of_isWordTail (h : Token.isWordTail c = true) : c ≠ ':' := by
  rintro rfl
  exact absurd h (by decide)

end Char

/-! ### Runs of characters -/

section Run

variable {p : Char → Bool} {cs : List Char} {n : Nat}

lemma take_length_takeWhile (p : Char → Bool) (cs : List Char) :
    cs.take (cs.takeWhile p).length = cs.takeWhile p :=
  (List.prefix_iff_eq_take.mp (List.takeWhile_prefix p)).symm

lemma head?_drop_takeWhile (p : Char → Bool) (cs : List Char) :
    ∀ d ∈ (cs.drop (cs.takeWhile p).length).head?, p d = false := by
  induction cs with
  | nil => simp
  | cons c cs ih =>
    by_cases h : p c = true
    · simpa [List.takeWhile_cons, h] using ih
    · simp [h]

/-- A run ends where the first character that is not in the class stands. -/
lemma length_takeWhile_eq (hn : n ≤ cs.length) (hall : ∀ d ∈ cs.take n, p d = true)
    (hhead : ∀ d ∈ (cs.drop n).head?, p d = false) : (cs.takeWhile p).length = n := by
  have hrest : (cs.drop n).takeWhile p = [] := by
    cases hd : cs.drop n with
    | nil => rfl
    | cons d ds => simp [hhead d (by simp [hd])]
  have htake : cs.takeWhile p = cs.take n := by
    conv_lhs => rw [← List.take_append_drop n cs]
    rw [List.takeWhile_append_of_pos hall, hrest, List.append_nil]
  rw [htake, List.length_take, Nat.min_eq_left hn]

lemma getElem?_of_drop_eq_cons {i : Nat} {c : Char} {rest : List Char}
    (h : cs.drop i = c :: rest) : cs[i]? = some c := by
  rw [← List.head?_drop, h, List.head?_cons]

lemma drop_of_drop_eq_cons {i : Nat} {c : Char} {rest : List Char} (h : cs.drop i = c :: rest)
    (n : Nat) : cs.drop (i + 1 + n) = rest.drop n := by
  rw [Nat.add_assoc, ← List.drop_drop, h, Nat.add_comm 1 n, List.drop_succ_cons]

end Run

/-! ### Spelling of kinds -/

lemma Keyword.ofText?_eq_some_iff {word : String} {k : Keyword} :
    ofText? word = some k ↔ word = k.text := by
  constructor
  · intro h
    have hfound := List.find?_some h
    exact (of_decide_eq_true hfound).symm
  · rintro rfl
    exact ofText?_text k

lemma Keyword.isLetter_of_mem_text (k : Keyword) : ∀ c ∈ k.text.toList, isLetter c = true := by
  rw [← List.all_eq_true]
  cases k <;> rfl

namespace Token.Kind

/-- The kinds of words. -/
def IsWord : Kind → Prop
  | .identifier | .keyword _ => True
  | _ => False

/-- The characters `w` are spelled as tokens of the kind are. -/
inductive Spelled : Kind → List Char → Prop where
  | number {c : Char} {w : List Char} (hc : isDigit c = true) (hw : ∀ d ∈ w, isDigit d = true) :
      Spelled .number (c :: w)
  | keyword {k : Keyword} {w : List Char} (hw : w = k.text.toList) : Spelled (.keyword k) w
  | identifier {c : Char} {w : List Char} (hc : isLetter c = true)
      (hw : ∀ d ∈ w, isLetter d = true ∨ isDigit d = true)
      (hk : ∀ k : Keyword, c :: w ≠ k.text.toList) : Spelled .identifier (c :: w)
  | becomes : Spelled .becomes [':', '=']
  | mark {c : Char} {k : Kind} (hc : ofMark? c = some k) : Spelled k [c]

/-- A token of the kind that ends before `cs` cannot be made longer. -/
def EndsBefore (k : Kind) (cs : List Char) : Prop :=
  (k = .number → ∀ d ∈ cs.head?, isDigit d = false) ∧
    (k.IsWord → ∀ d ∈ cs.head?, isWordTail d = false)

/-- A token of kind `l` may follow one of kind `k` with nothing between them. -/
def MayTouch (k l : Kind) : Prop :=
  (k.IsWord → ¬ l.IsWord ∧ l ≠ .number) ∧ (k = .number → l ≠ .number)

variable {k l : Kind} {c : Char} {w cs : List Char}

lemma ofMark?_ne_number (c : Char) : ofMark? c ≠ some .number := by
  intro h
  unfold ofMark? at h
  split at h <;> cases h

lemma not_isWord_of_ofMark? (h : ofMark? c = some k) : ¬ k.IsWord := by
  unfold ofMark? at h
  split at h <;> cases h <;> exact id

lemma isWord_ofWord (word : String) : (ofWord word).IsWord := by
  unfold ofWord
  split <;> trivial

lemma spelled_ofWord (hc : isLetter c = true) (hw : ∀ d ∈ w, isWordTail d = true) :
    (ofWord (String.ofList (c :: w))).Spelled (c :: w) := by
  unfold ofWord
  split
  · next k hk =>
    have htext := Keyword.ofText?_eq_some_iff.mp hk
    exact .keyword (by rw [← htext, String.toList_ofList])
  · next hk =>
    refine .identifier hc (fun d hd => by simpa [isWordTail] using hw d hd) fun k hlist => ?_
    have htext : String.ofList (c :: w) = k.text := by rw [hlist, String.ofList_toList]
    rw [Keyword.ofText?_eq_some_iff.mpr htext] at hk
    cases hk

/-- Words begin with a letter, go on with letters and digits, and their spelling gives their
kind. -/
lemma Spelled.word (h : k.Spelled (c :: w)) (hk : k.IsWord) :
    isLetter c = true ∧ (∀ d ∈ w, isWordTail d = true) ∧
      k = ofWord (String.ofList (c :: w)) := by
  cases h with
  | number _ _ => exact hk.elim
  | becomes => exact hk.elim
  | mark hc => exact absurd hk (not_isWord_of_ofMark? hc)
  | @keyword k _ hw =>
    have hof : ofWord (String.ofList (c :: w)) = .keyword k := by
      rw [hw, String.ofList_toList, ofWord, Keyword.ofText?_text]
    have hletter : ∀ d ∈ c :: w, isLetter d = true := hw ▸ Keyword.isLetter_of_mem_text k
    obtain ⟨hc, hletters⟩ := List.forall_mem_cons.mp hletter
    exact ⟨hc, fun d hd => by simp [isWordTail, hletters d hd], hof.symm⟩
  | identifier hc hw hk =>
    refine ⟨hc, fun d hd => by simpa [isWordTail] using hw d hd, ?_⟩
    unfold ofWord
    split
    · next k hof =>
      have htext := Keyword.ofText?_eq_some_iff.mp hof
      exact absurd (by rw [← htext, String.toList_ofList]) (hk k)
    · rfl

/-- A letter by itself is an identifier, since every keyword is longer. -/
lemma Spelled.letter (hc : isLetter c = true) : Kind.identifier.Spelled [c] := by
  refine .identifier hc nofun fun k hk => ?_
  have hlength : 1 = k.text.toList.length := congrArg List.length hk
  revert hlength
  cases k <;> decide

lemma Spelled.ne_nil (h : k.Spelled w) : w ≠ [] := by
  cases h with
  | @keyword k _ hw => subst hw; cases k <;> decide
  | _ => exact List.cons_ne_nil _ _

/-- No token begins with a space. -/
lemma Spelled.isSpace_eq_false (h : k.Spelled (c :: w)) : isSpace c = false := by
  by_contra hspace
  rw [Bool.not_eq_false] at hspace
  have htail := not_isWordTail_of_isSpace hspace
  by_cases hk : k.IsWord
  · have hletter := (h.word hk).1
    simp [isWordTail, hletter] at htail
  · cases h with
    | number hc _ => simp [isWordTail, hc] at htail
    | keyword _ => exact hk trivial
    | identifier _ _ _ => exact hk trivial
    | becomes => exact absurd hspace (by decide)
    | mark hc => rw [ofMark?_eq_none_of_isSpace hspace] at hc; cases hc

/-- A token that begins with a digit is a number. -/
lemma Spelled.eq_number (h : k.Spelled (c :: w)) (hc : isDigit c = true) : k = .number := by
  have htail : isWordTail c = true := by simp [isWordTail, hc]
  by_cases hk : k.IsWord
  · have hletter := (h.word hk).1
    rw [isLetter_eq_false_of_isDigit hc] at hletter
    cases hletter
  · cases h with
    | number _ _ => rfl
    | keyword _ => exact absurd trivial hk
    | identifier _ _ _ => exact absurd trivial hk
    | becomes => exact absurd hc (by decide)
    | mark hm => rw [ofMark?_eq_none_of_isWordTail htail] at hm; cases hm

/-- A token that begins with a letter is a word. -/
lemma Spelled.isWord (h : k.Spelled (c :: w)) (hc : isLetter c = true) : k.IsWord := by
  have htail : isWordTail c = true := by simp [isWordTail, hc]
  by_contra hk
  cases h with
  | number hd _ => rw [isLetter_eq_false_of_isDigit hd] at hc; cases hc
  | keyword _ => exact hk trivial
  | identifier _ _ _ => exact hk trivial
  | becomes => exact absurd hc (by decide)
  | mark hm => rw [ofMark?_eq_none_of_isWordTail htail] at hm; cases hm

lemma Spelled.isDigit_iff (h : k.Spelled (c :: w)) : isDigit c = true ↔ k = .number := by
  constructor
  · exact h.eq_number
  · rintro rfl
    cases h with
    | number hc _ => exact hc
    | mark hc => exact absurd hc (ofMark?_ne_number c)

lemma Spelled.isLetter_iff (h : k.Spelled (c :: w)) : isLetter c = true ↔ k.IsWord :=
  ⟨h.isWord, fun hk => (h.word hk).1⟩

lemma endsBefore_nil (k : Kind) : k.EndsBefore [] :=
  ⟨fun _ => nofun, fun _ => nofun⟩

lemma endsBefore_of_isSpace (hc : isSpace c = true) : k.EndsBefore (c :: cs) := by
  have htail := not_isWordTail_of_isSpace hc
  have hdigit : isDigit c = false := (Bool.or_eq_false_iff.mp htail).2
  constructor
  · rintro - d ⟨⟩
    exact hdigit
  · rintro - d ⟨⟩
    exact htail

/-- Whether a token could be longer is seen from the kind of the token that it touches. -/
lemma endsBefore_iff_mayTouch (h : l.Spelled (c :: w)) :
    k.EndsBefore (c :: cs) ↔ k.MayTouch l := by
  have hhead (p : Char → Bool) : (∀ d ∈ (c :: cs).head?, p d = false) ↔ ¬ p c = true := by
    simp
  have htail : isWordTail c = true ↔ l.IsWord ∨ l = .number := by
    rw [isWordTail, Bool.or_eq_true, h.isLetter_iff, h.isDigit_iff]
  rw [EndsBefore, MayTouch, hhead, hhead, htail, h.isDigit_iff, not_or, and_comm]

end Token.Kind

/-! ### The longest token -/

namespace Token

variable {c : Char} {k : Kind} {n : Nat} {rest : List Char}

lemma lexeme?_of_isDigit (hc : isDigit c = true) (rest : List Char) :
    lexeme? c rest = some (.number, (rest.takeWhile isDigit).length) := by
  have htail : isWordTail c = true := by simp [isWordTail, hc]
  simp only [lexeme?, if_neg (ne_colon_of_isWordTail htail), ofMark?_eq_none_of_isWordTail htail,
    if_pos hc]

lemma lexeme?_of_isLetter (hc : isLetter c = true) (rest : List Char) :
    lexeme? c rest = some (Kind.ofWord (String.ofList (c :: rest.takeWhile isWordTail)),
      (rest.takeWhile isWordTail).length) := by
  have htail : isWordTail c = true := by simp [isWordTail, hc]
  have hdigit : ¬ isDigit c = true := by
    intro hd
    rw [isLetter_eq_false_of_isDigit hd] at hc
    cases hc
  simp only [lexeme?, if_neg (ne_colon_of_isWordTail htail), ofMark?_eq_none_of_isWordTail htail,
    if_neg hdigit, if_pos hc]

lemma lexeme?_of_ofMark? (hc : Kind.ofMark? c = some k) (rest : List Char) :
    lexeme? c rest = some (k, 0) := by
  have hcolon : c ≠ ':' := by
    rintro rfl
    cases hc
  simp only [lexeme?, if_neg hcolon, hc]

/-- At `c` a token of kind `k` is spelled with the `n` characters behind it, and none with more. -/
structure Longest (c : Char) (rest : List Char) (k : Kind) (n : Nat) : Prop where
  le_length : n ≤ rest.length
  spelled : k.Spelled (c :: rest.take n)
  ends : k.EndsBefore (rest.drop n)

namespace Longest

lemma mark (hc : Kind.ofMark? c = some k) (rest : List Char) : Longest c rest k 0 := by
  refine ⟨Nat.zero_le _, .mark hc, ?_, ?_⟩
  · rintro rfl
    exact absurd hc (Kind.ofMark?_ne_number c)
  · intro hk
    exact absurd hk (Kind.not_isWord_of_ofMark? hc)

lemma number (hc : isDigit c = true) (rest : List Char) :
    Longest c rest .number (rest.takeWhile isDigit).length := by
  refine ⟨(List.takeWhile_prefix isDigit).length_le, ?_, ?_, False.elim⟩
  · rw [take_length_takeWhile]
    exact .number hc (List.all_eq_true.mp List.all_takeWhile)
  · intro _
    exact head?_drop_takeWhile isDigit rest

lemma word (hc : isLetter c = true) (rest : List Char) :
    Longest c rest (Kind.ofWord (String.ofList (c :: rest.takeWhile isWordTail)))
      (rest.takeWhile isWordTail).length := by
  refine ⟨(List.takeWhile_prefix isWordTail).length_le, ?_, ?_, ?_⟩
  · rw [take_length_takeWhile]
    exact Kind.spelled_ofWord hc (List.all_eq_true.mp List.all_takeWhile)
  · intro hnumber
    have hword := Kind.isWord_ofWord (String.ofList (c :: rest.takeWhile isWordTail))
    rw [hnumber] at hword
    exact hword.elim
  · intro _
    exact head?_drop_takeWhile isWordTail rest

lemma of_lexeme? (h : lexeme? c rest = some (k, n)) : Longest c rest k n := by
  unfold lexeme? at h
  split at h
  · next hcolon =>
    subst hcolon
    split at h
    · next heq =>
      cases h
      obtain ⟨rest, rfl⟩ := List.head?_eq_some_iff.mp heq
      exact ⟨by simp, .becomes, nofun, False.elim⟩
    · cases h
  · split at h
    · next hmark =>
      cases h
      exact mark hmark rest
    · split at h
      · next hdigit =>
        cases h
        exact number hdigit rest
      · split at h
        · next hletter =>
          cases h
          exact word hletter rest
        · cases h

lemma lexeme?_eq (h : Longest c rest k n) : lexeme? c rest = some (k, n) := by
  obtain ⟨hn, hspelled, hends⟩ := h
  by_cases hk : k.IsWord
  · obtain ⟨hletter, htail, hkind⟩ := hspelled.word hk
    have hlength := length_takeWhile_eq hn htail (hends.2 hk)
    have htake : rest.takeWhile isWordTail = rest.take n := by
      rw [← hlength, take_length_takeWhile]
    rw [lexeme?_of_isLetter hletter, hlength, htake, ← hkind]
  · have hlength := List.length_take_of_le hn
    generalize hw : rest.take n = w at hlength hspelled
    cases hspelled with
    | number hdigit hall =>
      rw [lexeme?_of_isDigit hdigit, length_takeWhile_eq hn (hw ▸ hall) (hends.1 rfl)]
    | keyword _ => exact absurd trivial hk
    | identifier _ _ _ => exact absurd trivial hk
    | becomes =>
      obtain rfl : 1 = n := hlength
      cases rest with
      | nil => cases hw
      | cons d ds =>
        obtain rfl : d = '=' := (List.cons.inj hw).1
        simp [lexeme?]
    | mark hmark =>
      obtain rfl : 0 = n := hlength
      exact lexeme?_of_ofMark? hmark rest

end Longest

/-- The token at `c` is the longest one that is spelled there. -/
theorem lexeme?_eq_some_iff : lexeme? c rest = some (k, n) ↔ Longest c rest k n :=
  ⟨Longest.of_lexeme?, Longest.lexeme?_eq⟩

/-! ### Cuts -/

/-- The tokens `ts` cut up the characters `cs` from offset `pos` on. -/
structure IsCut (cs : List Char) (pos : Nat) (ts : List Token) : Prop where
  within : ∀ t ∈ ts, pos ≤ t.start ∧ t.start < t.stop ∧ t.stop ≤ cs.length
  content : ∀ t ∈ ts, t.content.toList = (cs.take t.stop.toNat).drop t.start.toNat
  ordered : ts.Pairwise fun t u => t.stop ≤ u.start
  gaps : ∀ i, pos ≤ i → ∀ c ∈ cs[i]?, (∀ t ∈ ts, ¬ (t.start ≤ i ∧ i < t.stop)) → isSpace c = true
  spelled : ∀ t ∈ ts, t.kind.Spelled t.content.toList
  apart : ∀ t ∈ ts, ∀ u ∈ ts, t.stop = u.start → t.kind.MayTouch u.kind

namespace IsCut

variable {cs : List Char} {pos i : Nat} {t : Token} {ts : List Token}

/-- A token is spelled from the character on that stands where it starts. -/
lemma exists_spelled (h : IsCut cs pos ts) (ht : t ∈ ts) (hi : t.start = i) :
    ∃ c w, cs[i]? = some c ∧ t.kind.Spelled (c :: w) := by
  have hspelled := h.spelled t ht
  have hwithin := h.within t ht
  have hlt : i < t.stop.toNat := by omega
  have hhead : t.content.toList.head? = cs[i]? := by
    rw [h.content t ht, hi, Int.toNat_natCast, List.head?_drop, List.getElem?_take_of_lt hlt]
  cases hlist : t.content.toList with
  | nil => exact absurd hlist hspelled.ne_nil
  | cons c w => exact ⟨c, w, by rw [← hhead, hlist, List.head?_cons], hlist ▸ hspelled⟩

/-- Where no space stands, there is a token. -/
lemma exists_covering (h : IsCut cs pos ts) (hi : pos ≤ i) (hc : cs[i]? = some c)
    (hspace : ¬ isSpace c = true) : ∃ t ∈ ts, t.start ≤ i ∧ i < t.stop := by
  by_contra hnone
  push Not at hnone
  exact hspace (h.gaps i hi c hc fun t ht hcov => absurd (hnone t ht hcov.1) (by omega))

lemma nil_iff (hlen : cs.length ≤ pos) : IsCut cs pos ts ↔ ts = [] := by
  constructor
  · intro h
    refine List.eq_nil_iff_forall_not_mem.mpr fun t ht => ?_
    have hwithin := h.within t ht
    omega
  · rintro rfl
    refine ⟨by simp, by simp, .nil, fun i hi c hc => ?_, by simp, by simp⟩
    have hlt := (List.getElem?_eq_some_iff.mp hc).1
    omega

lemma space_iff (hc : cs[pos]? = some c) (hspace : isSpace c = true) :
    IsCut cs pos ts ↔ IsCut cs (pos + 1) ts := by
  constructor
  · intro h
    refine ⟨fun t ht => ?_, h.content, h.ordered, fun i hi => h.gaps i (by omega), h.spelled,
      h.apart⟩
    have hwithin := h.within t ht
    have hne : t.start ≠ pos := by
      intro hstart
      obtain ⟨d, w, hd, hw⟩ := h.exists_spelled ht hstart
      obtain rfl : c = d := Option.some.inj (hc.symm.trans hd)
      rw [hw.isSpace_eq_false] at hspace
      cases hspace
    omega
  · intro h
    refine ⟨fun t ht => ?_, h.content, h.ordered, fun i hi d hd hnone => ?_, h.spelled, h.apart⟩
    · have hwithin := h.within t ht
      omega
    · rcases Nat.eq_or_lt_of_le hi with rfl | hlt
      · obtain rfl : c = d := Option.some.inj (hc.symm.trans hd)
        exact hspace
      · exact h.gaps i hlt d hd hnone

/-- A cut begins with the token that stands at its first character, unless this is a space. -/
lemma exists_eq_cons (h : IsCut cs pos ts) (hc : cs[pos]? = some c) (hspace : ¬ isSpace c = true) :
    ∃ t ts', ts = t :: ts' ∧ t.start = pos := by
  obtain ⟨t, ht, hstart, -⟩ := h.exists_covering (Nat.le_refl pos) hc hspace
  have hwithin := h.within t ht
  cases ts with
  | nil => cases ht
  | cons u us =>
    rcases List.mem_cons.mp ht with rfl | hmem
    · exact ⟨t, us, rfl, by omega⟩
    · have hfirst := h.within u List.mem_cons_self
      have hbefore := List.rel_of_pairwise_cons h.ordered hmem
      omega

/-- What stands behind the first token of a cut does not make the token longer. -/
lemma endsBefore (h : IsCut cs pos (t :: ts)) (hi : t.stop = i) :
    t.kind.EndsBefore (cs.drop i) := by
  have hfirst := h.within t List.mem_cons_self
  cases hdrop : cs.drop i with
  | nil => exact Kind.endsBefore_nil t.kind
  | cons d ds =>
    have hd : cs[i]? = some d := getElem?_of_drop_eq_cons hdrop
    by_cases hspace : isSpace d = true
    · exact Kind.endsBefore_of_isSpace hspace
    · obtain ⟨u, hu, hstart, hstop⟩ := h.exists_covering (by omega) hd hspace
      rcases List.mem_cons.mp hu with rfl | hmem
      · omega
      · have hbefore := List.rel_of_pairwise_cons h.ordered hmem
        obtain ⟨d', w, hd', hw⟩ := h.exists_spelled hu (i := i) (by omega)
        obtain rfl : d = d' := Option.some.inj (hd.symm.trans hd')
        exact (Kind.endsBefore_iff_mayTouch hw).mpr
          (h.apart t List.mem_cons_self u hu (by omega))

lemma tail (h : IsCut cs pos (t :: ts)) (hi : t.stop = i) : IsCut cs i ts := by
  have hfirst := h.within t List.mem_cons_self
  have mem {u : Token} (hu : u ∈ ts) : u ∈ t :: ts := List.mem_cons_of_mem t hu
  refine ⟨fun u hu => ?_, fun u hu => h.content u (mem hu), h.ordered.of_cons,
    fun j hj d hd hnone => ?_, fun u hu => h.spelled u (mem hu),
    fun u hu v hv => h.apart u (mem hu) v (mem hv)⟩
  · have hbefore := List.rel_of_pairwise_cons h.ordered hu
    have hwithin := h.within u (mem hu)
    omega
  · refine h.gaps j (by omega) d hd fun u hu => ?_
    rcases List.mem_cons.mp hu with rfl | hmem
    · omega
    · exact hnone u hmem

/-- A token put before a cut of what stands behind it, where no character makes it longer. -/
lemma cons (h : IsCut cs i ts) (hi : t.stop = i)
    (hwithin : pos = t.start ∧ t.start < t.stop ∧ t.stop ≤ cs.length)
    (hcontent : t.content.toList = (cs.take t.stop.toNat).drop t.start.toNat)
    (hspelled : t.kind.Spelled t.content.toList) (hends : t.kind.EndsBefore (cs.drop i)) :
    IsCut cs pos (t :: ts) := by
  have hbehind : ∀ u ∈ ts, t.stop ≤ u.start ∧ u.start < u.stop := fun u hu => by
    have hwithin' := h.within u hu
    omega
  refine ⟨List.forall_mem_cons.mpr ⟨by omega, fun u hu => ?_⟩,
    List.forall_mem_cons.mpr ⟨hcontent, h.content⟩,
    List.pairwise_cons.mpr ⟨fun u hu => (hbehind u hu).1, h.ordered⟩, fun j hj d hd hnone => ?_,
    List.forall_mem_cons.mpr ⟨hspelled, h.spelled⟩, fun u hu v hv htouch => ?_⟩
  · have hwithin' := h.within u hu
    omega
  · have hnone' := List.forall_mem_cons.mp hnone
    exact h.gaps j (by omega) d hd hnone'.2
  · rcases List.mem_cons.mp hu with rfl | hu'
    · rcases List.mem_cons.mp hv with rfl | hv'
      · omega
      · obtain ⟨d, w, hd, hw⟩ := h.exists_spelled hv' (i := i) (by omega)
        obtain ⟨ds, hdrop⟩ : ∃ ds, cs.drop i = d :: ds :=
          List.head?_eq_some_iff.mp (by rw [List.head?_drop, hd])
        exact (Kind.endsBefore_iff_mayTouch hw).mp (hdrop ▸ hends)
    · rcases List.mem_cons.mp hv with rfl | hv'
      · have hbehind' := hbehind u hu'
        omega
      · exact h.apart u hu' v hv' htouch

end IsCut

/-- The token of kind `k` at offset `pos` that consists of `c` and the `n` characters behind it. -/
def cutOff (pos : Nat) (c : Char) (rest : List Char) (k : Kind) (n : Nat) : Token where
  kind := k
  start := pos
  stop := pos + 1 + n
  content := String.ofList (c :: rest.take n)

/-- A cut begins with the longest token there is, and the other tokens cut up what stands behind
it. -/
lemma isCut_iff_of_drop_eq_cons {cs : List Char} {pos : Nat} {ts : List Token}
    (hdrop : cs.drop pos = c :: rest) (hspace : ¬ isSpace c = true) :
    IsCut cs pos ts ↔ ∃ k n ts', lexeme? c rest = some (k, n) ∧
      ts = cutOff pos c rest k n :: ts' ∧ IsCut cs (pos + 1 + n) ts' := by
  have hc : cs[pos]? = some c := getElem?_of_drop_eq_cons hdrop
  have hlength : cs.length = pos + 1 + rest.length := by
    have hlen := congrArg List.length hdrop
    simp only [List.length_drop, List.length_cons] at hlen
    omega
  have hbehind (n : Nat) : cs.drop (pos + 1 + n) = rest.drop n := drop_of_drop_eq_cons hdrop n
  have hbetween (n : Nat) : (cs.take (pos + 1 + n)).drop pos = c :: rest.take n := by
    have hsub : pos + 1 + n - pos = n + 1 := by omega
    rw [List.drop_take, hdrop, hsub, List.take_succ_cons]
  constructor
  · intro h
    obtain ⟨t, ts', rfl, hstart⟩ := h.exists_eq_cons hc hspace
    have hwithin := h.within t List.mem_cons_self
    obtain ⟨n, hstop⟩ : ∃ n : Nat, t.stop = (pos + 1 + n : Nat) :=
      ⟨(t.stop - pos - 1).toNat, by omega⟩
    have hcontent : t.content.toList = c :: rest.take n := by
      rw [h.content t List.mem_cons_self, hstart, hstop, Int.toNat_natCast, Int.toNat_natCast,
        hbetween]
    have hspelled := h.spelled t List.mem_cons_self
    refine ⟨t.kind, n, ts', lexeme?_eq_some_iff.mpr ⟨by omega, ?_, ?_⟩, ?_, h.tail hstop⟩
    · rwa [hcontent] at hspelled
    · exact hbehind n ▸ h.endsBefore hstop
    · have ht : t = cutOff pos c rest t.kind n := by
        have hstop' : t.stop = t.start + 1 + n := by omega
        rw [cutOff, ← hcontent, String.ofList_toList, ← hstart, ← hstop']
      rw [← ht]
  · rintro ⟨k, n, ts', hlex, rfl, h⟩
    obtain ⟨hn, hspelled, hends⟩ := lexeme?_eq_some_iff.mp hlex
    have hcontent : (cutOff pos c rest k n).content.toList = c :: rest.take n :=
      String.toList_ofList
    have hstop : (cutOff pos c rest k n).stop = (pos + 1 + n : Nat) := rfl
    have hstart : (cutOff pos c rest k n).start = pos := rfl
    refine h.cons hstop ⟨rfl, by omega, by omega⟩ ?_ (hcontent ▸ hspelled) (hbehind n ▸ hends)
    rw [hcontent, hstop, hstart, Int.toNat_natCast, Int.toNat_natCast, hbetween]

/-! ### Cutting from left to right -/

lemma scan_eq_ok_iff {cs rest : List Char} {pos : Nat} {done ts : List Token}
    (hdrop : cs.drop pos = rest) :
    scan pos done rest = .ok ts ↔ ∃ ts', ts = done.reverse ++ ts' ∧ IsCut cs pos ts' := by
  -- what is in `done` stays in front of the tokens whatever the characters from `pos` on are
  induction pos, done, rest using scan.induct with
  | case1 pos done =>
    have hlen : cs.length ≤ pos := List.drop_eq_nil_iff.mp hdrop
    simp only [scan, Except.ok.injEq, IsCut.nil_iff hlen, exists_eq_right, List.append_nil, eq_comm]
  | case2 pos done c rest hspace ih =>
    have hc : cs[pos]? = some c := getElem?_of_drop_eq_cons hdrop
    have hdrop' : cs.drop (pos + 1) = rest := drop_of_drop_eq_cons hdrop 0
    rw [scan, if_pos hspace, ih hdrop']
    simp only [IsCut.space_iff hc hspace]
  | case3 pos done c rest hspace hlex =>
    rw [scan, if_neg hspace, hlex]
    simp [isCut_iff_of_drop_eq_cons hdrop hspace, hlex]
  | case4 pos done c rest hspace k n hlex token ih =>
    have hdrop' : cs.drop (pos + 1 + n) = rest.drop n := drop_of_drop_eq_cons hdrop n
    have htoken : token = cutOff pos c rest k n := rfl
    rw [scan, if_neg hspace, hlex]
    constructor
    · intro h
      obtain ⟨ts', rfl, hcut⟩ := (ih hdrop').mp h
      refine ⟨token :: ts', by simp, ?_⟩
      exact (isCut_iff_of_drop_eq_cons hdrop hspace).mpr ⟨k, n, ts', hlex, by rw [htoken], hcut⟩
    · rintro ⟨ts', rfl, h⟩
      obtain ⟨k', n', ts'', hlex', rfl, hcut⟩ := (isCut_iff_of_drop_eq_cons hdrop hspace).mp h
      cases hlex.symm.trans hlex'
      exact (ih hdrop').mpr ⟨ts'', by rw [htoken]; simp, hcut⟩

lemma isCut_of_ofText {text : String} {ts : List Token} (h : ofText text = .ok ts) :
    IsCut text.toList 0 ts := by
  obtain ⟨ts', rfl, hcut⟩ := (scan_eq_ok_iff List.drop_zero).mp h
  exact hcut

/-- A text has the tokens `ts` if and only if these cut it up. -/
theorem ofText_eq_ok_iff (text : String) (ts : List Token) :
    ofText text = .ok ts ↔ IsCut text.toList 0 ts := by
  rw [ofText, scan_eq_ok_iff (List.drop_zero)]
  simp

end Token

end Calculator
