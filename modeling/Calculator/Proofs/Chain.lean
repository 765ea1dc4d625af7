import Calculator.Proofs.Cutting.Joining
import Calculator.Proofs.Evaluation.Nesting
import Calculator.Proofs.Evaluation.Order
import Calculator.Proofs.Grammar.Completeness

/-!
# Chains of operands

A chain is a text that consists of operands with operators of one level between them: sums and
differences, or products and quotients. It is read as operations nested to the left, however many
there are and whatever the operands are, as long as each of them is an operand by itself.
-/

namespace Calculator

/-- The two sorts of chains. -/
inductive ChainKind where
  | additive
  | multiplicative
  deriving DecidableEq

namespace ChainKind

/-- The operators that may stand in a chain. -/
def operators : ChainKind → List BinaryOp
  | .additive => [.add, .subtract]
  | .multiplicative => [.multiply, .divide]

/-- The least power for which the operands behind these operators are read. -/
def operandPower : ChainKind → Power
  | .additive => 4
  | .multiplicative => 6

variable (kind : ChainKind)

lemma right_eq_operandPower : ∀ op ∈ kind.operators, op.binding.right = kind.operandPower := by
  cases kind <;> decide

/-- What an operator of a chain accepts on its right, it accepts on its left too. -/
lemma leftLevel_le_rightLevel : ∀ op ∈ kind.operators, op.leftLevel ≤ op.rightLevel := by
  cases kind <;> decide

/-- The operators of a chain accept each other on their left. -/
lemma leftLevel_le_level :
    ∀ op ∈ kind.operators, ∀ op' ∈ kind.operators, op.leftLevel ≤ op'.level := by
  cases kind <;> decide

lemma ne_assign : ∀ op ∈ kind.operators, op ≠ .assign := by
  cases kind <;> decide

lemma ne_exponent : ∀ op ∈ kind.operators, op ≠ .exponent := by
  cases kind <;> decide

end ChainKind

/-- A text of which the tokens spell a tree. -/
def Expr.Spells (text : String) (e : Expr) : Prop :=
  ∃ ts, Token.ofText text = .ok ts ∧ ts.map Token.lexeme = e.lexemes

/-- A text all of which is read as an operand for a least power, and the tree that it is read as. -/
structure Operand (least : Power) where
  text : String
  tree : Expr
  reads : ∃ ts, Token.ofText text = .ok ts ∧ Expr.readWithin .unlimited least ts = .ok (tree, [])

namespace Operand

variable {least : Power}

/-- An operand is a tree of the grammar that fits behind an operator. -/
theorem spec (o : Operand least) :
    Expr.Spells o.text o.tree ∧ o.tree.WellLevelled ∧ o.tree.Fits least := by
  obtain ⟨ts, hts, hread⟩ := o.reads
  have hreads := Expr.readWithin_unlimited_eq_ok_iff.mp hread
  obtain ⟨used, hused, hlexemes⟩ := hreads.spelled
  obtain rfl : ts = used := hused.trans (List.append_nil used)
  exact ⟨⟨ts, hts, hlexemes⟩, hreads.wellLevelled, hreads.fits⟩

end Operand

/-- An operator of a chain with the operand behind it; there may be space around the operator. -/
structure Link (kind : ChainKind) where
  op : BinaryOp
  op_mem : op ∈ kind.operators
  before : String := " "
  after : String := " "
  before_blank : ∀ c ∈ before.toList, Token.isSpace c = true := by simp [Token.isSpace]
  after_blank : ∀ c ∈ after.toList, Token.isSpace c = true := by simp [Token.isSpace]
  operand : Operand kind.operandPower

namespace Link

variable {kind : ChainKind}

/-- A text with the operator and its operand behind it. -/
def behind (l : Link kind) (text : String) : String :=
  text ++ l.before ++ l.op.symbol ++ l.after ++ l.operand.text

/-- The operator and the tree of its operand. -/
def term (l : Link kind) : BinaryOp × Expr := (l.op, l.operand.tree)

end Link

/-- A chain: an operand and any number of operators with operands behind it. -/
structure Chain (kind : ChainKind) where
  first : Operand kind.operandPower
  links : List (Link kind)

namespace Chain

variable {kind : ChainKind}

/-- The text of a chain. -/
def text (c : Chain kind) : String := c.links.foldl (fun text l => l.behind text) c.first.text

/-- The operators of a chain and the operands behind them. -/
def terms (c : Chain kind) : List (BinaryOp × Expr) := c.links.map Link.term

/-- The tree of a chain: its operations, nested to the left. -/
def tree (c : Chain kind) : Expr := .chain c.first.tree c.terms

end Chain

/-! ### Spelling an operation -/

lemma Expr.level_binary (op : BinaryOp) (l r : Expr) : (binary op l r).level = op.level := by
  cases op <;> rfl

lemma BinaryOp.exists_mark {op : BinaryOp} (hop : op ≠ .assign) :
    ∃ c, op.symbol = String.singleton c ∧ Token.Kind.ofMark? c = some op.kind := by
  cases op with
  | add => exact ⟨'+', rfl, rfl⟩
  | subtract => exact ⟨'-', rfl, rfl⟩
  | multiply => exact ⟨'*', rfl, rfl⟩
  | divide => exact ⟨'/', rfl, rfl⟩
  | exponent => exact ⟨'^', rfl, rfl⟩
  | assign => exact absurd rfl hop

namespace Expr

lemma Spells.binary {text text' before after : String} {l r : Expr} {op : BinaryOp}
    (h : Spells text l) (h' : Spells text' r) (hop : op ≠ .assign)
    (hbefore : ∀ c ∈ before.toList, Token.isSpace c = true)
    (hafter : ∀ c ∈ after.toList, Token.isSpace c = true) :
    Spells (text ++ before ++ op.symbol ++ after ++ text') (.binary op l r) := by
  obtain ⟨ts, hts, hl⟩ := h
  obtain ⟨ts', hts', hr⟩ := h'
  obtain ⟨c, hsymbol, hc⟩ := op.exists_mark hop
  obtain ⟨mark, offset, hmark, htext⟩ := Token.ofText_append_mark hts hts' hbefore hafter hc
  rw [← hsymbol] at htext
  have hlexeme : mark.lexeme = .mark op.kind :=
    Token.lexeme_of_kind hmark (by cases op <;> decide) (by cases op <;> decide)
  have hshift : (ts'.map (Token.shift offset)).map Token.lexeme = r.lexemes := by
    rw [← hr, List.map_map]
    rfl
  exact ⟨_, htext, by rw [List.map_append, List.map_cons, hl, hlexeme, hshift]; rfl⟩

/-- The text of a well-levelled tree is read as that tree. -/
lemma Spells.ofTokens {text : String} {e : Expr} (h : Spells text e) (hw : e.WellLevelled) :
    ∃ ts, Token.ofText text = .ok ts ∧ ofTokens .unlimited ts = .ok e := by
  obtain ⟨ts, hts, hlexemes⟩ := h
  refine ⟨ts, hts, ofTokens_unlimited_eq_ok_iff.mpr (readWithin_unlimited_eq_ok_iff.mpr ?_)⟩
  exact .of_lexemes hw hlexemes

end Expr

/-! ### Reading a chain -/

/-- A text that the rest of a chain may follow, and its tree: every operator of the chain accepts
the tree on its left. -/
structure ChainKind.Opens (kind : ChainKind) (text : String) (e : Expr) : Prop where
  spelled : Expr.Spells text e
  wellLevelled : e.WellLevelled
  accepted : ∀ op ∈ kind.operators, op.leftLevel ≤ e.level

namespace ChainKind.Opens

variable {kind : ChainKind}

lemma operand (o : Operand kind.operandPower) : kind.Opens o.text o.tree := by
  obtain ⟨hspells, hw, hfits⟩ := o.spec
  refine ⟨hspells, hw, fun op hop => ?_⟩
  have hright : op.rightLevel ≤ o.tree.level := by
    rw [Expr.rightLevel_le_iff, kind.right_eq_operandPower op hop]
    exact hfits
  exact Nat.le_trans (kind.leftLevel_le_rightLevel op hop) hright

/-- One more operator with its operand belongs to the same chain. -/
lemma link {text : String} {e : Expr} (h : kind.Opens text e) (l : Link kind) :
    kind.Opens (l.behind text) (.binary l.op e l.operand.tree) := by
  obtain ⟨hspells, hw, hfits⟩ := l.operand.spec
  refine ⟨?_, ?_, fun op hop => ?_⟩
  · exact h.spelled.binary hspells (kind.ne_assign l.op l.op_mem) l.before_blank l.after_blank
  · refine ⟨⟨h.accepted l.op l.op_mem, ?_⟩, h.wellLevelled, hw⟩
    rw [Expr.rightLevel_le_iff, kind.right_eq_operandPower l.op l.op_mem]
    exact hfits
  · rw [Expr.level_binary]
    exact kind.leftLevel_le_level op hop l.op l.op_mem

end ChainKind.Opens

namespace Chain

variable {kind : ChainKind}

lemma op_mem_of_mem_terms {c : Chain kind} {term : BinaryOp × Expr} (h : term ∈ c.terms) :
    term.1 ∈ kind.operators := by
  obtain ⟨l, -, rfl⟩ := List.mem_map.mp h
  exact l.op_mem

/-- However many operators follow, what has been read of a chain can be continued. -/
lemma opens_foldl {text : String} {e : Expr} (h : kind.Opens text e) (links : List (Link kind)) :
    kind.Opens (links.foldl (fun text l => l.behind text) text)
      (.chain e (links.map Link.term)) := by
  induction links generalizing text e with
  | nil => exact h
  | cons l links ih => exact ih (h.link l)

/-- A chain is read as its operations, nested to the left. -/
theorem exists_ofTokens (c : Chain kind) :
    ∃ ts, Token.ofText c.text = .ok ts ∧ Expr.ofTokens .unlimited ts = .ok c.tree := by
  have hopens : kind.Opens c.text c.tree := opens_foldl (.operand c.first) c.links
  exact hopens.spelled.ofTokens hopens.wellLevelled

/-! ### Evaluating a chain -/

/-- A chain of operands is read as operations nested to the left. Evaluating it computes the
operands from the last one to the first one and then calculates from the left; what can fail there
is a division by zero. A limit on nesting changes nothing else. -/
theorem evaluate_text (c : Chain kind) :
    ∃ ts, Token.ofText c.text = .ok ts ∧
      (Expr.ofTokens .unlimited ts = .ok c.tree ∧
        ∀ allowance, Expr.UpToNesting (Expr.ofTokens allowance ts) (.ok c.tree)) ∧
      ∀ limit env,
        (c.tree.evaluate limit .unlimited env =
            (Expr.computeChain limit c.first.tree c.terms).run.run env ∧
          ∀ allowance, (c.tree.evaluate limit allowance env).1 ≠ .error .tooDeep →
            c.tree.evaluate limit allowance env =
              (Expr.computeChain limit c.first.tree c.terms).run.run env) ∧
        ∀ v values, (∀ value ∈ values, value.1 ∈ kind.operators) → ∀ error,
          Expr.calculate limit v values = .error error ↔ ∃ before after dividend,
            values = before ++ (.divide, 0) :: after ∧
              Expr.calculate limit v before = .ok dividend ∧ error = .divisionByZero dividend := by
  obtain ⟨ts, hts, hread⟩ := c.exists_ofTokens
  refine ⟨ts, hts, ⟨hread, fun allowance => ?_⟩,
    fun limit env => ⟨?_, fun v values hops error => ?_⟩⟩
  · rw [← hread]
    exact Expr.ofTokens_upToNesting allowance ts
  · have hcompute : c.tree.evaluate limit .unlimited env =
        (Expr.computeChain limit c.first.tree c.terms).run.run env := by
      rw [← Expr.compute_chain limit c.first.tree fun term hterm =>
        kind.ne_assign term.1 (op_mem_of_mem_terms hterm)]
      rfl
    refine ⟨hcompute, fun allowance hdeep => ?_⟩
    rw [Expr.evaluate_eq_unlimited hdeep, hcompute]
  · exact Expr.calculate_eq_error_iff fun value hvalue =>
      kind.ne_exponent value.1 (hops value hvalue)

/-- In `12 / a / (a := 0)`, the assignment comes first and makes both divisors zero. -/
theorem evaluate_text_assigned_divisor :
    ∃ ts e, Token.ofText "12 / a / (a := 0)" = .ok ts ∧ Expr.ofTokens .unlimited ts = .ok e ∧
      e.evaluate 1000 .standard .empty =
        (.error (.arithmetic (.divisionByZero 12)), Environment.empty.set "a" 0) := by
  let number : Operand 6 :=
    ⟨"12", .number 12, [⟨.number, 0, 2, "12"⟩], by decide +kernel, rfl⟩
  let divisor : Operand 6 :=
    ⟨"a", .ident "a", [⟨.identifier, 0, 1, "a"⟩], by decide +kernel, rfl⟩
  let assignment : Operand 6 :=
    ⟨"(a := 0)", .group (.binary .assign (.ident "a") (.number 0)),
      [⟨.openParen, 0, 1, "("⟩, ⟨.identifier, 1, 2, "a"⟩, ⟨.becomes, 3, 5, ":="⟩,
        ⟨.number, 6, 7, "0"⟩, ⟨.closeParen, 7, 8, ")"⟩], by decide +kernel, rfl⟩
  let c : Chain .multiplicative :=
    ⟨number, [{ op := .divide, op_mem := by decide, operand := divisor },
      { op := .divide, op_mem := by decide, operand := assignment }]⟩
  obtain ⟨ts, hts, ⟨hread, -⟩, heval⟩ := evaluate_text c
  obtain ⟨⟨-, hcompute⟩, hcalculate⟩ := heval 1000 .empty
  have hzero : Expr.calculate 1000 12 [(.divide, 0), (.divide, 0)] =
      .error (.divisionByZero 12) :=
    (hcalculate 12 [(.divide, 0), (.divide, 0)] (by decide) _).mpr ⟨[], _, 12, rfl, rfl, rfl⟩
  have hoperands : (Expr.computeOperands 1000 c.terms).run.run .empty =
      (.ok [(.divide, 0), (.divide, 0)], Environment.empty.set "a" 0) := rfl
  have hfirst : (c.first.tree.compute 1000).run.run (Environment.empty.set "a" 0) =
      (.ok 12, Environment.empty.set "a" 0) := rfl
  refine ⟨ts, c.tree, hts, hread, (hcompute .standard (by decide)).trans ?_⟩
  rw [Expr.computeChain, Evaluation.bind_of_ok hoperands, Evaluation.bind_of_ok hfirst, hzero]
  rfl

end Chain

end Calculator
