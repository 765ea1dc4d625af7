import Calculator.Proofs.Cutting

/-!
# The tokens of joined texts

If the second of two texts does not continue the last word or number of the first, then the tokens
of the joined text are those of the first one and behind them those of the second one, moved by the
length of the first.
-/

namespace Calculator.Token

/-- The token at a place `offset` characters further on. -/
def shift (offset : Nat) (t : Token) : Token :=
  { t with start := t.start + offset, stop := t.stop + offset }

section Append

variable {c : Char} {rest cs cs' : List Char} {k : Kind} {n pos : Nat} {done ts : List Token}

lemma Kind.EndsBefore.append (h : k.EndsBefore cs)
    (hcs' : ∀ d ∈ cs'.head?, isWordTail d = false) : k.EndsBefore (cs ++ cs') := by
  cases cs with
  | nil =>
    refine ⟨fun _ d hd => ?_, fun _ => hcs'⟩
    exact (Bool.or_eq_false_iff.mp (hcs' d hd)).2
  | cons d ds => exact h

/-- The longest token stays the longest one if what is appended does not continue it. -/
lemma Longest.append (h : Longest c rest k n) (hcs' : ∀ d ∈ cs'.head?, isWordTail d = false) :
    Longest c (rest ++ cs') k n := by
  refine ⟨?_, ?_, ?_⟩
  · have hn := h.le_length
    rw [List.length_append]
    omega
  · rw [List.take_append_of_le_length h.le_length]
    exact h.spelled
  · rw [List.drop_append_of_le_length h.le_length]
    exact h.ends.append hcs'

/-- Behind a text that has been cut up, cutting goes on with the appended one. -/
theorem scan_append (hcs' : ∀ d ∈ cs'.head?, isWordTail d = false)
    (h : scan pos done cs = .ok ts) :
    scan pos done (cs ++ cs') = scan (pos + cs.length) ts.reverse cs' := by
  induction pos, done, cs using scan.induct with
  | case1 pos done =>
    rw [scan] at h
    cases h
    simp
  | case2 pos done c rest hspace ih =>
    rw [scan, if_pos hspace] at h
    rw [List.cons_append, scan, if_pos hspace, ih h, List.length_cons, Nat.add_right_comm,
      Nat.add_assoc]
  | case3 pos done c rest hspace hlex =>
    rw [scan, if_neg hspace, hlex] at h
    cases h
  | case4 pos done c rest hspace k n hlex token ih =>
    have hlongest := lexeme?_eq_some_iff.mp hlex
    have hn := hlongest.le_length
    have hlex' := lexeme?_eq_some_iff.mpr (hlongest.append hcs')
    rw [scan, if_neg hspace, hlex] at h
    have hlength : pos + 1 + n + (rest.drop n).length = pos + (c :: rest).length := by
      rw [List.length_drop, List.length_cons]
      omega
    rw [List.cons_append, scan, if_neg hspace, hlex']
    simp only [List.take_append_of_le_length hn, List.drop_append_of_le_length hn]
    rw [ih h, hlength]

/-- Where cutting starts only moves the tokens, and the ones found before stay in front. -/
theorem scan_shift (offset : Nat) (before : List Token) (h : scan pos done cs = .ok ts) :
    scan (pos + offset) (done.map (shift offset) ++ before) cs =
      .ok (before.reverse ++ ts.map (shift offset)) := by
  induction pos, done, cs using scan.induct with
  | case1 pos done =>
    rw [scan] at h
    cases h
    simp [scan]
  | case2 pos done c rest hspace ih =>
    rw [scan, if_pos hspace] at h
    rw [scan, if_pos hspace, Nat.add_right_comm]
    exact ih h
  | case3 pos done c rest hspace hlex =>
    rw [scan, if_neg hspace, hlex] at h
    cases h
  | case4 pos done c rest hspace k n hlex token ih =>
    rw [scan, if_neg hspace, hlex] at h
    have htoken : shift offset token =
        ⟨k, (pos + offset : Nat), (pos + offset : Nat) + 1 + n,
          String.ofList (c :: rest.take n)⟩ := by
      simp only [shift, token, Token.mk.injEq, true_and, and_true]
      omega
    rw [scan, if_neg hspace, hlex]
    dsimp only
    rw [← htoken, ← List.cons_append, ← List.map_cons]
    have hpos : pos + offset + 1 + n = pos + 1 + n + offset := by omega
    rw [hpos]
    exact ih h

/-- Space is passed over. -/
lemma scan_space (hcs : ∀ d ∈ cs, isSpace d = true) (pos : Nat) (done : List Token)
    (cs' : List Char) : scan pos done (cs ++ cs') = scan (pos + cs.length) done cs' := by
  induction cs generalizing pos with
  | nil => rfl
  | cons c cs ih =>
    obtain ⟨hc, hcs⟩ := List.forall_mem_cons.mp hcs
    rw [List.cons_append, scan, if_pos hc, ih hcs, List.length_cons, Nat.add_right_comm,
      Nat.add_assoc]

/-- What begins with space continues no token. -/
lemma not_isWordTail_head_append (hcs : ∀ d ∈ cs, isSpace d = true)
    (hcs' : cs = [] → ∀ d ∈ cs'.head?, isWordTail d = false) :
    ∀ d ∈ (cs ++ cs').head?, isWordTail d = false := by
  cases cs with
  | nil => exact hcs' rfl
  | cons c cs =>
    rintro d ⟨⟩
    exact not_isWordTail_of_isSpace (hcs c List.mem_cons_self)

/-- A mark is a token of its own. -/
lemma scan_mark (hc : Kind.ofMark? c = some k) (pos : Nat) (done : List Token) (cs : List Char) :
    scan pos done (c :: cs) = scan (pos + 1) (cutOff pos c cs k 0 :: done) cs := by
  have hspace : ¬ isSpace c = true := by
    intro hspace
    rw [ofMark?_eq_none_of_isSpace hspace] at hc
    cases hc
  rw [scan, if_neg hspace, lexeme?_of_ofMark? hc]
  rfl

end Append

/-- Two texts with a mark between them, around which there may be space, have the tokens of both
and that of the mark. -/
theorem ofText_append_mark {text text' before after : String} {c : Char} {k : Kind}
    {ts ts' : List Token} (h : ofText text = .ok ts) (h' : ofText text' = .ok ts')
    (hbefore : ∀ d ∈ before.toList, isSpace d = true)
    (hafter : ∀ d ∈ after.toList, isSpace d = true) (hc : Kind.ofMark? c = some k) :
    ∃ mark offset, mark.kind = k ∧
      ofText (text ++ before ++ String.singleton c ++ after ++ text') =
        .ok (ts ++ mark :: ts'.map (shift offset)) := by
  have hhead : ∀ d ∈ (before.toList ++ c :: (after.toList ++ text'.toList)).head?,
      isWordTail d = false := by
    refine not_isWordTail_head_append hbefore fun _ => ?_
    rintro d ⟨⟩
    exact not_isWordTail_of_ofMark? hc
  let pos := text.toList.length + before.toList.length
  let offset := pos + 1 + after.toList.length
  refine ⟨cutOff pos c (after.toList ++ text'.toList) k 0, offset, rfl, ?_⟩
  have hlist : (text ++ before ++ String.singleton c ++ after ++ text').toList =
      text.toList ++ (before.toList ++ c :: (after.toList ++ text'.toList)) := by
    simp
  rw [ofText] at h h'
  have hshift :=
    scan_shift offset (cutOff pos c (after.toList ++ text'.toList) k 0 :: ts.reverse) h'
  rw [ofText, hlist, scan_append hhead h, scan_space hbefore, scan_mark hc, scan_space hafter]
  simpa [offset, pos] using hshift

/-- Two texts with space between them have the tokens of both. -/
theorem ofText_append_space {text text' gap : String} {ts ts' : List Token}
    (h : ofText text = .ok ts) (h' : ofText text' = .ok ts') (hne : gap ≠ "")
    (hgap : ∀ d ∈ gap.toList, isSpace d = true) :
    ofText (text ++ gap ++ text') =
      .ok (ts ++ ts'.map (shift (text.length + gap.length))) := by
  have hhead : ∀ d ∈ (gap.toList ++ text'.toList).head?, isWordTail d = false :=
    not_isWordTail_head_append hgap fun h => absurd (String.toList_eq_nil_iff.mp h) hne
  have hlist : (text ++ gap ++ text').toList = text.toList ++ (gap.toList ++ text'.toList) := by
    simp
  rw [ofText] at h h'
  have hshift := scan_shift (text.length + gap.length) ts.reverse h'
  rw [ofText, hlist, scan_append hhead h, scan_space hgap, String.length_toList,
    String.length_toList]
  simpa using hshift

end Calculator.Token
