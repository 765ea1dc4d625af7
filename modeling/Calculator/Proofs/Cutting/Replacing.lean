import Calculator.Proofs.Cutting.Spelling

/-!
# Replacing tokens in a text

A text in which tokens have been replaced by other texts says what the other tokens say and what the
replacements say in their places, as long as the replacements do not run into their neighbours.
-/

namespace Calculator.Token

/-- The characters of `cs` from offset `pos` on, where `f` gives what stands in the place of each of
the tokens. -/
def replaceAll (f : Token → List Char) (cs : List Char) : (pos : Nat) → List Token → List Char
  | pos, [] => cs.drop pos
  | pos, t :: ts =>
    (cs.take t.start.toNat).drop pos ++ (f t ++ replaceAll f cs t.stop.toNat ts)

/-! ### Gaps between tokens -/

namespace IsCut

variable {cs : List Char} {pos : Nat} {c : Char} {t : Token} {ts : List Token}

lemma isSpace_of_mem_drop (h : IsCut cs pos []) (hc : c ∈ cs.drop pos) : isSpace c = true := by
  obtain ⟨i, hi⟩ := List.mem_iff_getElem?.mp hc
  rw [List.getElem?_drop] at hi
  exact h.gaps (pos + i) (Nat.le_add_right pos i) c hi fun _ hnone => by cases hnone

lemma isSpace_of_mem_gap (h : IsCut cs pos (t :: ts))
    (hc : c ∈ (cs.take t.start.toNat).drop pos) : isSpace c = true := by
  obtain ⟨i, hi⟩ := List.mem_iff_getElem?.mp hc
  rw [List.getElem?_drop, List.getElem?_take] at hi
  split at hi
  · next hlt =>
    refine h.gaps (pos + i) (Nat.le_add_right pos i) c hi fun u hu => ?_
    have hfirst := h.within t List.mem_cons_self
    rcases List.mem_cons.mp hu with rfl | hmem
    · omega
    · have hbefore := List.rel_of_pairwise_cons h.ordered hmem
      omega
  · cases hi

/-- What stands from `pos` on is a gap, the first token and the rest. -/
lemma drop_eq (h : IsCut cs pos (t :: ts)) :
    cs.drop pos = (cs.take t.start.toNat).drop pos ++
      (t.content.toList ++ cs.drop t.stop.toNat) := by
  have hwithin := h.within t List.mem_cons_self
  have split {i j : Nat} (hij : i ≤ j) (hj : j ≤ cs.length) :
      cs.drop i = (cs.take j).drop i ++ cs.drop j := by
    have hi : i ≤ (cs.take j).length := by rw [List.length_take]; omega
    rw [← List.drop_append_of_le_length hi, List.take_append_drop]
  rw [split (i := pos) (j := t.start.toNat) (by omega) (by omega),
    split (i := t.start.toNat) (j := t.stop.toNat) (by omega) (by omega),
    h.content t List.mem_cons_self]

end IsCut

/-! ### Replacements -/

/-- The characters `cs` may stand in the place of `t`: they say `ls`, and no token that ends before
`t` goes on in them. -/
structure StandsFor (t : Token) (cs : List Char) (ls : List Lexeme) : Prop where
  spell : ∀ rest ls', t.kind.EndsBefore rest → Says rest ls' → Says (cs ++ rest) (ls ++ ls')
  ends : ∀ (k : Kind) rest rest', k.EndsBefore (t.content.toList ++ rest) →
    k.EndsBefore (cs ++ rest')

lemma Kind.EndsBefore.of_head? {k : Kind} {cs cs' : List Char} (h : k.EndsBefore cs)
    (hhead : cs'.head? = cs.head?) : k.EndsBefore cs' := by
  rw [Kind.EndsBefore, hhead]
  exact h

lemma Kind.endsBefore_of_ofMark? {c : Char} {m : Kind} (hc : ofMark? c = some m) (k : Kind)
    (cs : List Char) : k.EndsBefore (c :: cs) := by
  have htail := not_isWordTail_of_ofMark? hc
  have hdigit : Text.isDigit c = false := (Bool.or_eq_false_iff.mp htail).2
  constructor
  · rintro - d ⟨⟩
    exact hdigit
  · rintro - d ⟨⟩
    exact htail

/-- A token may stand in its own place. -/
lemma StandsFor.self {t : Token} (ht : t.kind.Spelled t.content.toList) :
    StandsFor t t.content.toList [t.lexeme] where
  spell rest ls' hends h := by
    rw [← spelledLexeme_content]
    exact .token ht hends h
  ends k rest rest' h := by
    obtain ⟨c, w, hlist⟩ := List.exists_cons_of_ne_nil ht.ne_nil
    rw [hlist] at h ⊢
    exact h.of_head? rfl

variable {f : Token → List Char} {g : Token → List Lexeme} {cs : List Char} {pos : Nat}
  {ts : List Token}

/-- A token that ends before `pos` does not go on where the tokens behind it are replaced. -/
lemma endsBefore_replaceAll (hcut : IsCut cs pos ts) (hf : ∀ t ∈ ts, StandsFor t (f t) (g t))
    {k : Kind} (h : k.EndsBefore (cs.drop pos)) : k.EndsBefore (replaceAll f cs pos ts) := by
  cases ts with
  | nil => exact h
  | cons t ts =>
    rw [hcut.drop_eq] at h
    rw [replaceAll]
    cases hgap : (cs.take t.start.toNat).drop pos with
    | nil =>
      rw [hgap] at h
      exact (hf t List.mem_cons_self).ends k _ _ h
    | cons c gap =>
      rw [hgap] at h
      exact h.of_head? rfl

/-- A text with tokens replaced says what stands in their places. -/
theorem Says.replaced (hcut : IsCut cs pos ts) (hf : ∀ t ∈ ts, StandsFor t (f t) (g t)) :
    Says (replaceAll f cs pos ts) (ts.flatMap g) := by
  induction ts generalizing pos with
  | nil =>
    have h := Says.spaces (fun c hc => hcut.isSpace_of_mem_drop hc) .nil
    rwa [List.append_nil] at h
  | cons t ts ih =>
    obtain ⟨ht, hf'⟩ := List.forall_mem_cons.mp hf
    have hwithin := hcut.within t List.mem_cons_self
    have hstop : t.stop = t.stop.toNat := by omega
    have htail : IsCut cs t.stop.toNat ts := hcut.tail hstop
    have hends := endsBefore_replaceAll htail hf' (hcut.endsBefore hstop)
    rw [replaceAll, List.flatMap_cons]
    refine .spaces (fun c hc => hcut.isSpace_of_mem_gap hc) ?_
    exact ht.spell _ _ hends (ih htail hf')

/-- A text in which every token stays in its place is the text itself. -/
lemma IsCut.replaceAll_content (h : IsCut cs pos ts) :
    replaceAll (·.content.toList) cs pos ts = cs.drop pos := by
  induction ts generalizing pos with
  | nil => rfl
  | cons t ts ih =>
    have hwithin := h.within t List.mem_cons_self
    rw [replaceAll, ih (h.tail (i := t.stop.toNat) (by omega)), h.drop_eq]

/-- A text says what its tokens say. -/
theorem Says.of_ofText {text : String} (h : ofText text = .ok ts) :
    Says text.toList (ts.map lexeme) := by
  have hcut := isCut_of_ofText h
  have hsaid := Says.replaced hcut fun t ht => StandsFor.self (hcut.spelled t ht)
  rwa [hcut.replaceAll_content, List.drop_zero, ← List.map_eq_flatMap] at hsaid

end Calculator.Token
