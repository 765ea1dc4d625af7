import Calculator.Proofs.Cutting
import Calculator.Proofs.Grammar

/-!
# What a text says

What the tokens of a text say, one after the other, without regard to their places. A text is put
together from spellings of tokens and space; a token must not go on in what is put behind it, and
then cutting the text gives back what it was put together from.
-/

namespace Calculator

open Text

namespace Token

/-- What a token of kind `k` says if it is spelled `w`; its place does not matter. -/
def spelledLexeme (k : Kind) (w : List Char) : Lexeme := lexeme ⟨k, 0, 0, String.ofList w⟩

lemma spelledLexeme_content (t : Token) : spelledLexeme t.kind t.content.toList = t.lexeme := by
  rw [spelledLexeme, String.ofList_toList]
  rfl

lemma spelledLexeme_mark {k : Kind} {c : Char} (hc : Kind.ofMark? c = some k) :
    spelledLexeme k [c] = .mark k := by
  have hn : k ≠ .number := fun hk => Kind.ofMark?_ne_number c (hk ▸ hc)
  have hi : k ≠ .identifier := fun hk => Kind.not_isWord_of_ofMark? hc (hk ▸ trivial)
  exact lexeme_of_kind rfl hn hi

/-- The characters `cs` are spellings of tokens with space between them, and the tokens say `ls`. -/
inductive Says : List Char → List Lexeme → Prop where
  | nil : Says [] []
  | space {c : Char} {cs : List Char} {ls : List Lexeme} (hc : isSpace c = true)
      (h : Says cs ls) : Says (c :: cs) ls
  | token {k : Kind} {w cs : List Char} {ls : List Lexeme} (hw : k.Spelled w)
      (hends : k.EndsBefore cs) (h : Says cs ls) : Says (w ++ cs) (spelledLexeme k w :: ls)

namespace Says

variable {k : Kind} {c : Char} {w cs gap : List Char} {ls : List Lexeme}

lemma spaces (hgap : ∀ d ∈ gap, isSpace d = true) (h : Says cs ls) : Says (gap ++ cs) ls := by
  induction gap with
  | nil => exact h
  | cons d gap ih =>
    obtain ⟨hd, hgap⟩ := List.forall_mem_cons.mp hgap
    exact .space hd (ih hgap)

lemma mark (hc : Kind.ofMark? c = some k) (h : Says cs ls) : Says (c :: cs) (.mark k :: ls) := by
  have hends : k.EndsBefore cs :=
    ⟨fun hk => absurd hc (hk ▸ Kind.ofMark?_ne_number c),
      fun hk => absurd hk (Kind.not_isWord_of_ofMark? hc)⟩
  rw [← spelledLexeme_mark hc]
  exact .token (.mark hc) hends h

/-- An identifier with `:=` behind it says so, with or without space around the operator. -/
lemma assignment {x before after : List Char} (hx : Kind.identifier.Spelled x)
    (hbefore : ∀ d ∈ before, isSpace d = true) (hafter : ∀ d ∈ after, isSpace d = true)
    (h : Says cs ls) :
    Says (x ++ (before ++ (':' :: '=' :: (after ++ cs))))
      (.ident (String.ofList x) :: .mark .becomes :: ls) := by
  have hoperator : Says (':' :: '=' :: (after ++ cs)) (.mark .becomes :: ls) :=
    .token .becomes ⟨nofun, False.elim⟩ (h.spaces hafter)
  have hends : Kind.identifier.EndsBefore (before ++ (':' :: '=' :: (after ++ cs))) := by
    cases before with
    | nil => exact ⟨nofun, by rintro - d ⟨⟩; rfl⟩
    | cons d before => exact Kind.endsBefore_of_isSpace (hbefore d List.mem_cons_self)
  exact .token hx hends (hoperator.spaces hbefore)

/-- Spellings that are put together are cut apart again. -/
theorem exists_scan (h : Says cs ls) (pos : Nat) (done : List Token) :
    ∃ ts, scan pos done cs = .ok (done.reverse ++ ts) ∧ ts.map lexeme = ls := by
  induction h generalizing pos done with
  | nil => exact ⟨[], by simp [scan], rfl⟩
  | space hc _ ih =>
    rw [scan, if_pos hc]
    exact ih (pos + 1) done
  | @token k w cs ls hw hends _ ih =>
    obtain ⟨c, w, rfl⟩ := List.exists_cons_of_ne_nil hw.ne_nil
    have hspace : ¬ isSpace c = true := by rw [hw.isSpace_eq_false]; exact Bool.false_ne_true
    have htake : (w ++ cs).take w.length = w := List.take_left
    have hdrop : (w ++ cs).drop w.length = cs := List.drop_left
    have hlongest : Longest c (w ++ cs) k w.length :=
      ⟨by simp, by rwa [htake], by rwa [hdrop]⟩
    let t := cutOff pos c (w ++ cs) k w.length
    have hcontent : t.content.toList = c :: w :=
      String.toList_ofList.trans (congrArg (c :: ·) htake)
    have ht : t.lexeme = spelledLexeme k (c :: w) := by
      rw [← spelledLexeme_content, hcontent]
      rfl
    obtain ⟨ts, hscan, hts⟩ := ih (pos + 1 + w.length) (t :: done)
    refine ⟨t :: ts, ?_, by rw [List.map_cons, ht, hts]⟩
    rw [List.cons_append, scan, if_neg hspace, lexeme?_eq_some_iff.mpr hlongest]
    dsimp only
    rw [hdrop]
    exact hscan.trans (by simp)

lemma exists_ofText {text : String} (h : Says text.toList ls) :
    ∃ ts, ofText text = .ok ts ∧ ts.map lexeme = ls := by
  obtain ⟨ts, hts, hlexemes⟩ := h.exists_scan 0 []
  exact ⟨ts, hts, hlexemes⟩

end Says

end Token

end Calculator
