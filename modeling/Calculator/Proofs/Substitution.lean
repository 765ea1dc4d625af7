import Calculator.Proofs.Chain
import Calculator.Proofs.Cutting.Replacing
import Calculator.Proofs.Evaluation.Frame
import Calculator.Proofs.Evaluation.Targets
import Calculator.Proofs.Numeral

/-!
# Replacing a variable by its value

Writing the value of a variable in parentheses wherever the variable stands in a line does not
change what the line computes, unless the line assigns to the variable. The parentheses keep the
value together whatever stands around it, and since the variable is never assigned to, it has that
value wherever it is read.
-/

namespace Calculator

open Text

/-! ### Trees -/

namespace Expr

/-- The tree in which `r` stands for the variable `x`. -/
def substitute (e : Expr) (x : String) (r : Expr) : Expr :=
  match e with
  | .number n => .number n
  | .ident y => if y = x then r else .ident y
  | .unary op e => .unary op (e.substitute x r)
  | .binary op e e' => .binary op (e.substitute x r) (e'.substitute x r)
  | .group e => .group (e.substitute x r)
  | .conditional c y n =>
    .conditional (c.substitute x r) (y.substitute x r) (n.substitute x r)

variable {x : String} {r : Expr}

lemma lexemes_substitute (x : String) (r e : Expr) :
    (e.substitute x r).lexemes =
      e.lexemes.flatMap fun l => if l = .ident x then r.lexemes else [l] := by
  induction e with
  | number n => simp [substitute, lexemes]
  | ident y =>
    by_cases hy : y = x
    · simp [substitute, lexemes, hy]
    · simp [substitute, lexemes, hy]
  | unary op e ih => cases op <;> simp [substitute, lexemes, ih]
  | binary op l r' ihl ihr => simp [substitute, lexemes, ihl, ihr]
  | group e ih => simp [substitute, lexemes, ih]
  | conditional c y n ihc ihy ihn => simp [substitute, lexemes, ihc, ihy, ihn]

/-- A tree that binds as tightly as a variable changes no level. -/
lemma level_substitute (hr : r.level = 6) (e : Expr) : (e.substitute x r).level = e.level := by
  cases e with
  | ident y =>
    by_cases hy : y = x
    · rw [substitute, if_pos hy, hr]
      rfl
    · rw [substitute, if_neg hy]
  | unary op e => cases op <;> rfl
  | binary op l r' => cases op <;> rfl
  | _ => rfl

lemma wellLevelled_substitute (hr : r.level = 6) (hw : r.WellLevelled) {e : Expr}
    (h : e.WellLevelled) : (e.substitute x r).WellLevelled := by
  induction e with
  | number n => trivial
  | ident y =>
    simp only [substitute]
    split
    · exact hw
    · trivial
  | unary op e ih => exact ⟨by rw [level_substitute hr]; exact h.1, ih h.2⟩
  | binary op l r' ihl ihr =>
    refine ⟨?_, ihl h.2.1, ihr h.2.2⟩
    rw [level_substitute hr, level_substitute hr]
    exact h.1
  | group e ih => exact ih h
  | conditional c y n ihc ihy ihn => exact ⟨ihc h.1, ihy h.2.1, ihn h.2.2⟩

/-- Another target than the variable `x` stays what it is. -/
lemma target?_substitute {l : Expr} (hx : x ∉ BinaryOp.assign.target? l) :
    BinaryOp.assign.target? (l.substitute x r) = BinaryOp.assign.target? l := by
  cases l with
  | ident y =>
    have hy : y ≠ x := fun h => hx (h ▸ rfl)
    rw [substitute, if_neg hy]
  | _ => rfl

/-- A variable that has the value of `r` everywhere and is not assigned to may be replaced by
`r`. -/
theorem run_substitute {limit v : Int} (hr : ∀ env, r.run limit .unlimited env = Run.value v)
    {e : Expr} (hx : x ∉ e.targets) {env : Environment} (hv : env.get? x = some v) :
    (e.substitute x r).run limit .unlimited env =
      (e.run limit .unlimited env).mapTarget (·.substitute x r) := by
  induction e generalizing env with
  | number n => rfl
  | ident y =>
    by_cases hy : y = x
    · subst hy
      simp only [substitute, if_pos, hr, run, Run.enter_unlimited, hv]
      rfl
    · simp only [substitute, if_neg hy, run, Run.enter_unlimited]
      cases env.get? y <;> rfl
  | unary op e ih => exact run_unary_mapTarget op (ih hx hv)
  | group e ih => exact ih hx hv
  | conditional c y n ihc ihy ihn =>
    simp only [targets, List.mem_append, not_or] at hx
    obtain ⟨hc, hy, hn⟩ := hx
    have hkept := (get?_commit_run limit hc .unlimited env).trans hv
    exact run_conditional_mapTarget (ihc hc hv) (ihy hy hkept) (ihn hn hkept)
  | binary op l r' ihl ihr =>
    simp only [targets, List.mem_append, Option.mem_toList, not_or] at hx
    obtain ⟨htarget, hl, hr'⟩ := hx
    by_cases hop : op = .assign
    · subst hop
      exact run_assign_mapTarget (f := (·.substitute x r)) (target?_substitute htarget) (ihr hr' hv)
    · have hkept := (get?_commit_run limit hr' .unlimited env).trans hv
      exact run_operation_mapTarget hop (ihr hr' hv) (ihl hl hkept)

end Expr

/-! ### Texts -/

namespace Token

/-- What stands for a token if the variable `x` is replaced by the value `v` in parentheses. -/
def substituted (x : String) (v : Int) (t : Token) : List Char :=
  if t.kind = .identifier ∧ t.content = x then '(' :: ((Decimal.ofInt v).toList ++ [')'])
  else t.content.toList

/-- The text with the tokens `ts` in which the variable `x` is replaced by the value `v` in
parentheses. -/
def substituteText (text : String) (ts : List Token) (x : String) (v : Int) : String :=
  String.ofList (replaceAll (substituted x v) text.toList 0 ts)

/-- A value in parentheses may stand in the place of any token. -/
lemma standsFor_parenthesized (t : Token) (v : Int) :
    StandsFor t ('(' :: ((Decimal.ofInt v).toList ++ [')']))
      (Expr.group (Expr.numeral v)).lexemes where
  spell rest ls' _ h := by
    have hclose : Says (')' :: rest) (.mark .closeParen :: ls') := .mark rfl h
    have hvalue := hclose.numeral (by rintro d ⟨⟩; rfl) v
    have hopen : Says ('(' :: ((Decimal.ofInt v).toList ++ ')' :: rest)) _ := .mark rfl hvalue
    simpa [Expr.lexemes] using hopen
  ends k _ _ _ := Kind.endsBefore_of_ofMark? (m := .openParen) rfl k _

lemma standsFor_substituted (x : String) (v : Int) {t : Token}
    (ht : t.kind.Spelled t.content.toList) :
    StandsFor t (substituted x v t)
      (if t.lexeme = .ident x then (Expr.group (Expr.numeral v)).lexemes else [t.lexeme]) := by
  rw [substituted]
  by_cases hx : t.kind = .identifier ∧ t.content = x
  · rw [if_pos hx, if_pos (lexeme_eq_ident_iff.mpr hx)]
    exact standsFor_parenthesized t v
  · rw [if_neg hx, if_neg (fun h => hx (lexeme_eq_ident_iff.mp h))]
    exact .self ht

end Token

/-! ### Lines -/

namespace Expr

variable {text : String} {ts : List Token} {e : Expr}

lemma Spells.substitute (hts : Token.ofText text = .ok ts)
    (hspells : ts.map Token.lexeme = e.lexemes) (x : String) (v : Int) :
    Spells (Token.substituteText text ts x v) (e.substitute x (group (numeral v))) := by
  have hcut : Token.IsCut text.toList 0 ts := Token.isCut_of_ofText hts
  have hsaid := Token.Says.replaced hcut fun t ht =>
    Token.standsFor_substituted x v (hcut.spelled t ht)
  have hlexemes : (e.substitute x (group (numeral v))).lexemes =
      ts.flatMap fun t =>
        if t.lexeme = .ident x then (group (numeral v)).lexemes else [t.lexeme] := by
    rw [lexemes_substitute, ← hspells, List.flatMap_map]
  refine Token.Says.exists_ofText ?_
  rwa [hlexemes, Token.substituteText, String.toList_ofList]

/-- In a line that can be read, a variable that has a value and is not assigned to may be replaced
by its value in parentheses: the new line can be read too, it evaluates to the same value or fails
with the same error, and it leaves the same variables. In the target that an error shows, the
variable is replaced as well. -/
theorem evaluate_substituteText {text : String} {ts : List Token} {allowance : Allowance}
    {e : Expr} {x : String} {v : Int} {env : Environment} (hts : Token.ofText text = .ok ts)
    (he : ofTokens allowance ts = .ok e) (hx : x ∉ e.targets) (hv : env.get? x = some v) :
    let e' := e.substitute x (group (numeral v))
    ∃ ts', Token.ofText (Token.substituteText text ts x v) = .ok ts' ∧
      (ofTokens .unlimited ts' = .ok e' ∧
        ∀ allowance', UpToNesting (ofTokens allowance' ts') (.ok e')) ∧
      EvaluatesLike (·.substitute x (group (numeral v))) env e' e := by
  intro e'
  obtain ⟨hw, hspells⟩ := spelled_of_ofTokens he
  have hw' : e'.WellLevelled :=
    wellLevelled_substitute (r := group (numeral v)) rfl (wellLevelled_numeral v) hw
  obtain ⟨ts', hts', hread⟩ := (Spells.substitute hts hspells x v).ofTokens hw'
  refine ⟨ts', hts', ⟨hread, fun allowance' => ?_⟩, .of_run fun limit => ?_⟩
  · rw [← hread]
    exact ofTokens_upToNesting allowance' ts'
  · exact run_substitute (r := group (numeral v)) (fun env => run_numeral limit v env) hx hv

/-- Where `x` is `-2`, the line `x^2 := y := -x` assigns to `y` and fails, and so does the line
`(-2)^2 := y := -(-2)`. -/
theorem evaluate_substituteText_negative :
    let ts : List Token := [⟨.identifier, 0, 1, "x"⟩, ⟨.caret, 1, 2, "^"⟩, ⟨.number, 2, 3, "2"⟩,
      ⟨.becomes, 4, 6, ":="⟩, ⟨.identifier, 7, 8, "y"⟩, ⟨.becomes, 9, 11, ":="⟩,
      ⟨.minus, 12, 13, "-"⟩, ⟨.identifier, 13, 14, "x"⟩]
    let e := binary .assign (binary .exponent (ident "x") (number 2))
      (binary .assign (ident "y") (unary .negate (ident "x")))
    let env := Environment.empty.set "x" (-2)
    let value := group (unary .negate (number 2))
    (Token.ofText "x^2 := y := -x" = .ok ts ∧ ofTokens .standard ts = .ok e ∧
      "x" ∉ e.targets ∧ env.get? "x" = some (-2)) ∧
    Token.substituteText "x^2 := y := -x" ts "x" (-2) = "(-2)^2 := y := -(-2)" ∧
    ∃ ts' e', Token.ofText "(-2)^2 := y := -(-2)" = .ok ts' ∧ ofTokens .unlimited ts' = .ok e' ∧
      e'.evaluate 100 .standard env =
        (.error (.invalidTarget (binary .exponent value (number 2))), env.set "y" 2) := by
  intro ts e env value
  have hts : Token.ofText "x^2 := y := -x" = .ok ts := by decide +kernel
  have he : ofTokens .standard ts = .ok e := rfl
  have hx : "x" ∉ e.targets := by decide
  have hv : env.get? "x" = some (-2) := rfl
  have htext : Token.substituteText "x^2 := y := -x" ts "x" (-2) = "(-2)^2 := y := -(-2)" := by
    decide +kernel
  obtain ⟨ts', hts', ⟨hread, -⟩, hlike⟩ := evaluate_substituteText hts he hx hv
  have hevaluate := hlike 100 .standard .standard (by decide) (by decide)
  rw [htext] at hts'
  exact ⟨⟨hts, he, hx, hv⟩, htext, ts', _, hts', hread, hevaluate⟩

end Expr

end Calculator
