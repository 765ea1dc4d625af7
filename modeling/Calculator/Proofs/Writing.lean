import Calculator.Proofs.Chain
import Calculator.Proofs.Evaluation.Targets
import Calculator.Proofs.Grammar.Names
import Calculator.Proofs.Numeral
import Mathlib.Data.List.Forall2

/-!
# Writing expressions

Every tree can be written as a line: operators stand before, behind or between their operands, and
an operand that is more than a number or a variable is put in parentheses, so that levels do not
matter. A negative literal becomes a sign and a number in parentheses. The line is read as the tree
with the parentheses and signs that have been added, and it evaluates as the tree does.
-/

namespace Calculator

open Text

namespace Expr

/-! ### The line of a tree -/

/-- Whether a tree is written without parentheses where it is an operand: it is a number without a
minus sign or a variable. -/
def isBare : Expr → Bool
  | .number n => 0 ≤ n
  | .ident _ => true
  | _ => false

/-- The words of an operand, in parentheses unless it is bare. -/
def parenthesized (bare : Bool) (words : List String) : List String :=
  if bare then words else "(" :: (words ++ [")"])

/-- The words of the line of a tree. -/
def words : Expr → List String
  | .number n => if n < 0 then ["(", "-", Decimal.ofInt (-n), ")"] else [Decimal.ofInt n]
  | .ident x => [x]
  | .unary .factorial e => parenthesized e.isBare e.words ++ [UnaryOp.factorial.symbol]
  | .unary op e => op.symbol :: parenthesized e.isBare e.words
  | .binary op l r =>
    parenthesized l.isBare l.words ++ op.symbol :: parenthesized r.isBare r.words
  | .group e => "(" :: (e.words ++ [")"])
  | .conditional c y n =>
    Keyword.ifWord.text :: (c.words ++ Keyword.thenWord.text ::
      (y.words ++ Keyword.elseWord.text :: (n.words ++ [Keyword.endWord.text])))

/-- The line of a tree: its words with a space between them. -/
def text (e : Expr) : String := " ".intercalate e.words

/-! ### The tree of the line -/

/-- An operand in a group, unless it is bare. -/
def grouped (bare : Bool) (e : Expr) : Expr := if bare then e else .group e

/-- A tree with the parentheses and signs that its line has. -/
def written : Expr → Expr
  | .number n => if n < 0 then .group (.unary .negate (.number (-n))) else .number n
  | .ident x => .ident x
  | .unary op e => .unary op (grouped e.isBare e.written)
  | .binary op l r => .binary op (grouped l.isBare l.written) (grouped r.isBare r.written)
  | .group e => .group e.written
  | .conditional c y n => .conditional c.written y.written n.written

/-- A tree with the parentheses and signs that it has as an operand in a line. -/
def writtenOperand (e : Expr) : Expr := grouped e.isBare e.written

/-- The first tree becomes the second one if groups are taken away and negated numbers in groups are
read as negative literals. -/
inductive ReadsBack : Expr → Expr → Prop where
  | number (n : Int) : ReadsBack (.number n) (.number n)
  | ident (x : String) : ReadsBack (.ident x) (.ident x)
  | unary {e' e : Expr} (op : UnaryOp) (h : ReadsBack e' e) :
      ReadsBack (.unary op e') (.unary op e)
  | binary {l' l r' r : Expr} (op : BinaryOp) (hl : ReadsBack l' l) (hr : ReadsBack r' r) :
      ReadsBack (.binary op l' r') (.binary op l r)
  | group {e' e : Expr} (h : ReadsBack e' e) : ReadsBack (.group e') (.group e)
  | conditional {c' c y' y n' n : Expr} (hc : ReadsBack c' c) (hy : ReadsBack y' y)
      (hn : ReadsBack n' n) : ReadsBack (.conditional c' y' n') (.conditional c y n)
  | added {e' e : Expr} (h : ReadsBack e' e) : ReadsBack (.group e') e
  | negative {n : Int} (hn : 0 < n) :
      ReadsBack (.group (.unary .negate (.number n))) (.number (-n))

lemma ReadsBack.grouped {e' e : Expr} (h : ReadsBack e' e) (bare : Bool) :
    ReadsBack (grouped bare e') e := by
  cases bare with
  | true => exact h
  | false => exact .added h

theorem readsBack_written (e : Expr) : ReadsBack e.written e := by
  induction e with
  | number n =>
    simp only [written]
    split
    · next hn =>
      have hneg := ReadsBack.negative (n := -n) (by omega)
      rwa [Int.neg_neg] at hneg
    · exact .number n
  | ident x => exact .ident x
  | unary op e ih => exact .unary op (ih.grouped _)
  | binary op l r ihl ihr => exact .binary op (ihl.grouped _) (ihr.grouped _)
  | group e ih => exact .group ih
  | conditional c y n ihc ihy ihn => exact .conditional ihc ihy ihn

lemma writtenOperand_number (n : Int) :
    (number n).writtenOperand =
      if n < 0 then .group (.group (.unary .negate (.number (-n)))) else .number n := by
  by_cases hn : n < 0
  · have hbare : ¬ 0 ≤ n := by omega
    simp [writtenOperand, isBare, grouped, written, hn, hbare]
  · have hbare : 0 ≤ n := by omega
    simp [writtenOperand, isBare, grouped, written, hn, hbare]

lemma level_writtenOperand (e : Expr) : e.writtenOperand.level = 6 := by
  cases e with
  | number n =>
    rw [writtenOperand_number]
    split <;> rfl
  | _ => rfl

lemma wellLevelled_grouped {e : Expr} (h : e.WellLevelled) (bare : Bool) :
    (grouped bare e).WellLevelled := by
  cases bare <;> exact h

/-- Since operands are bare or in groups, operators accept them. -/
theorem wellLevelled_written (e : Expr) : e.written.WellLevelled := by
  induction e with
  | number n =>
    simp only [written]
    split
    · exact ⟨by simp [UnaryOp.operandLevel, level], trivial⟩
    · trivial
  | ident x => trivial
  | unary op e ih =>
    have hlevel : (grouped e.isBare e.written).level = 6 := level_writtenOperand e
    exact ⟨by rw [hlevel]; cases op <;> decide, wellLevelled_grouped ih _⟩
  | binary op l r ihl ihr =>
    have hl : (grouped l.isBare l.written).level = 6 := level_writtenOperand l
    have hr : (grouped r.isBare r.written).level = 6 := level_writtenOperand r
    exact ⟨by rw [hl, hr]; cases op <;> decide, wellLevelled_grouped ihl _,
      wellLevelled_grouped ihr _⟩
  | group e ih => exact ih
  | conditional c y n ihc ihy ihn => exact ⟨ihc, ihy, ihn⟩

/-! ### Reading the line -/

end Expr

namespace Token

/-- The word `w` is a token that says `l`. -/
def IsWord (w : String) (l : Lexeme) : Prop :=
  ∃ k : Kind, k.Spelled w.toList ∧ spelledLexeme k w.toList = l

variable {c : Char} {k : Kind} {w : String} {ws : List String} {l : Lexeme} {ls : List Lexeme}

lemma IsWord.mark (hc : Kind.ofMark? c = some k) : IsWord (String.singleton c) (.mark k) := by
  refine ⟨k, ?_⟩
  rw [String.toList_singleton]
  exact ⟨.mark hc, spelledLexeme_mark hc⟩

lemma IsWord.keyword (word : Keyword) : IsWord word.text (.mark (.keyword word)) :=
  ⟨.keyword word, .keyword rfl, lexeme_of_kind rfl nofun nofun⟩

lemma IsWord.ident {x : String} (hx : Kind.identifier.Spelled x.toList) : IsWord x (.ident x) :=
  ⟨.identifier, hx, by simp [spelledLexeme, lexeme]⟩

lemma IsWord.number (n : Nat) : IsWord (Decimal.ofInt n) (.number n) := by
  refine ⟨.number, ?_⟩
  rw [Decimal.toList_ofInt_natCast]
  exact ⟨Kind.spelled_toDigits n, spelledLexeme_toDigits n⟩

lemma IsWord.unaryOp (op : UnaryOp) : IsWord op.symbol (.mark op.kind) := by
  cases op with
  | negate => exact .mark (c := '-') rfl
  | identity => exact .mark (c := '+') rfl
  | factorial => exact .mark (c := '!') rfl

lemma IsWord.binaryOp (op : BinaryOp) : IsWord op.symbol (.mark op.kind) := by
  by_cases hop : op = .assign
  · subst hop
    exact ⟨.becomes, .becomes, rfl⟩
  · obtain ⟨c, hsymbol, hc⟩ := op.exists_mark hop
    rw [hsymbol]
    exact .mark hc

/-- Words with a space between them are cut apart again. -/
theorem Says.words (h : List.Forall₂ IsWord ws ls) : Says (" ".intercalate ws).toList ls := by
  induction h with
  | nil => exact .nil
  | @cons w l ws ls hw htail ih =>
    obtain ⟨k, hk, rfl⟩ := hw
    cases htail with
    | nil =>
      have hend := Says.token hk (Kind.endsBefore_nil k) .nil
      rwa [List.append_nil] at hend
    | cons _ _ =>
      rw [String.intercalate_cons_cons, String.toList_append, String.toList_append,
        List.append_assoc]
      exact .token hk (Kind.endsBefore_of_isSpace rfl) (.space rfl ih)

end Token

namespace Expr

open Token

lemma forall₂_parenthesized {words : List String} {e : Expr}
    (h : List.Forall₂ IsWord words e.lexemes) (bare : Bool) :
    List.Forall₂ IsWord (parenthesized bare words) (grouped bare e).lexemes := by
  cases bare with
  | true => exact h
  | false =>
    exact .cons (.mark (c := '(') rfl) (List.rel_append h (.cons (.mark (c := ')') rfl) .nil))

/-- The words of the line of a tree are those of the tree with the parentheses and signs of its
line. -/
theorem forall₂_words {e : Expr} (h : ∀ x ∈ e.idents, Kind.identifier.Spelled x.toList) :
    List.Forall₂ IsWord e.words e.written.lexemes := by
  induction e with
  | number n =>
    simp only [words, written]
    split
    · next hn =>
      have habs : -n = (n.natAbs : Int) := by omega
      rw [habs]
      exact .cons (.mark (c := '(') rfl) (.cons (.mark (c := '-') rfl)
        (.cons (.number n.natAbs) (.cons (.mark (c := ')') rfl) .nil)))
    · obtain ⟨m, rfl⟩ := Int.eq_ofNat_of_zero_le (by omega : 0 ≤ n)
      exact .cons (.number m) .nil
  | ident x => exact .cons (.ident (h x (by simp [idents]))) .nil
  | unary op e ih =>
    have hoperand := forall₂_parenthesized (ih h) e.isBare
    cases op with
    | factorial => exact List.rel_append hoperand (.cons (.unaryOp .factorial) .nil)
    | negate | identity => exact .cons (.unaryOp _) hoperand
  | binary op l r ihl ihr =>
    obtain ⟨hl, hr⟩ := List.forall_mem_append.mp h
    exact List.rel_append (forall₂_parenthesized (ihl hl) l.isBare)
      (.cons (.binaryOp op) (forall₂_parenthesized (ihr hr) r.isBare))
  | group e ih =>
    exact .cons (.mark (c := '(') rfl) (List.rel_append (ih h) (.cons (.mark (c := ')') rfl) .nil))
  | conditional c y n ihc ihy ihn =>
    obtain ⟨hc, hyn⟩ := List.forall_mem_append.mp h
    obtain ⟨hy, hn⟩ := List.forall_mem_append.mp hyn
    exact .cons (.keyword .ifWord) (List.rel_append (ihc hc) (.cons (.keyword .thenWord)
      (List.rel_append (ihy hy) (.cons (.keyword .elseWord)
        (List.rel_append (ihn hn) (.cons (.keyword .endWord) .nil))))))

/-! ### Evaluating the line -/

lemma run_grouped (limit : Int) (bare : Bool) (e : Expr) (env : Environment) :
    (grouped bare e).run limit .unlimited env = e.run limit .unlimited env := by
  cases bare <;> rfl

/-- A literal stays a literal or becomes a group, and neither is a variable. -/
lemma target?_writtenOperand (e : Expr) :
    BinaryOp.assign.target? e.writtenOperand = BinaryOp.assign.target? e := by
  cases e with
  | number n =>
    rw [writtenOperand_number]
    split <;> rfl
  | _ => rfl

/-- Parentheses and the signs of negative literals change nothing but the target that an error
shows. -/
theorem run_written (limit : Int) (e : Expr) (env : Environment) :
    e.written.run limit .unlimited env =
      (e.run limit .unlimited env).mapTarget writtenOperand := by
  induction e generalizing env with
  | number n =>
    simp only [written]
    split
    · next hn =>
      rw [← numeral_of_neg hn]
      exact run_numeral limit n env
    · rfl
  | ident x =>
    simp only [written, run, Run.enter_unlimited]
    cases env.get? x <;> rfl
  | unary op e ih =>
    exact run_unary_mapTarget op ((run_grouped limit e.isBare e.written env).trans (ih env))
  | group e ih => exact ih env
  | conditional c y n ihc ihy ihn =>
    exact run_conditional_mapTarget (ihc env) (ihy _) (ihn _)
  | binary op l r ihl ihr =>
    have hr := (run_grouped limit r.isBare r.written env).trans (ihr env)
    by_cases hop : op = .assign
    · subst hop
      exact run_assign_mapTarget (target?_writtenOperand l) hr
    · exact run_operation_mapTarget hop hr
        ((run_grouped limit l.isBare l.written _).trans (ihl _))

/-- The line of a tree is read as the tree with the parentheses and signs that the line has. Taking
these away gives the tree back, and evaluating the line has the same value or error as evaluating
the tree, and leaves the same variables. -/
theorem evaluate_written {e : Expr} (h : ∀ x ∈ e.idents, Kind.identifier.Spelled x.toList) :
    ∃ ts, ofText e.text = .ok ts ∧
      (ofTokens .unlimited ts = .ok e.written ∧
        ∀ allowance, UpToNesting (ofTokens allowance ts) (.ok e.written)) ∧
      ReadsBack e.written e ∧ ∀ env, EvaluatesLike writtenOperand env e.written e := by
  have hspells : Spells e.text e.written := (Says.words (forall₂_words h)).exists_ofText
  obtain ⟨ts, hts, hread⟩ := hspells.ofTokens (wellLevelled_written e)
  refine ⟨ts, hts, ⟨hread, fun allowance => ?_⟩, readsBack_written e, fun env => ?_⟩
  · rw [← hread]
    exact ofTokens_upToNesting allowance ts
  · exact .of_run fun limit => run_written limit e env

/-- The tree of `(a + -2) ^ (b := if a then 3 else -1 end)!`, without any groups. -/
theorem evaluate_written_power :
    let e := binary .exponent (binary .add (ident "a") (number (-2)))
      (unary .factorial (binary .assign (ident "b")
        (conditional (ident "a") (number 3) (number (-1)))))
    let env := Environment.empty.set "a" 5
    (∀ x ∈ e.idents, Kind.identifier.Spelled x.toList) ∧
      e.text = "( a + ( ( - 2 ) ) ) ^ ( ( b := ( if a then 3 else ( - 1 ) end ) ) ! )" ∧
      ∃ ts, ofText e.text = .ok ts ∧ ofTokens .unlimited ts = .ok e.written ∧
        e.written.evaluate 100 .standard env = (.ok 729, env.set "b" 3) := by
  intro e env
  have h : ∀ x ∈ e.idents, Kind.identifier.Spelled x.toList := by
    have ha : Kind.identifier.Spelled ['a'] := .letter (by decide)
    have hb : Kind.identifier.Spelled ['b'] := .letter (by decide)
    simp [e, idents, ha, hb]
  obtain ⟨ts, hts, ⟨hread, -⟩, -, hlike⟩ := evaluate_written h
  have hevaluate := hlike env 100 .standard .standard (by decide) (by decide)
  exact ⟨h, by decide +kernel, ts, hts, hread, hevaluate⟩

end Expr

end Calculator
