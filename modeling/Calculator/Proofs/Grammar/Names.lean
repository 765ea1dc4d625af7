import Calculator.Proofs.Cutting
import Calculator.Proofs.Evaluation
import Calculator.Proofs.Grammar.Soundness

/-!
# Names in expressions

The variables of a tree are what stands in the identifiers of its text, so they are spelled as
identifiers are: they are no numerals, no keywords, and one word each.
-/

namespace Calculator

namespace Expr

/-- The variables that stand in a tree. -/
def idents : Expr → List String
  | .number _ => []
  | .ident x => [x]
  | .unary _ e | .group e => e.idents
  | .binary _ l r => l.idents ++ r.idents
  | .conditional c y n => c.idents ++ (y.idents ++ n.idents)

/-- Every name in the tree is spelled as identifiers are. -/
def Named (e : Expr) : Prop := ∀ x ∈ e.idents, Token.Kind.identifier.Spelled x.toList

variable {e : Expr} {x : String}

/-- A variable stands in a tree where it is assigned to or where it is read. -/
lemma mem_idents_iff : x ∈ e.idents ↔ x ∈ e.targets ∨ x ∈ e.reads := by
  induction e with
  | number n => simp [idents, targets, reads]
  | ident y => simp [idents, targets, reads]
  | unary op e ih => exact ih
  | group e ih => exact ih
  | conditional c y n ihc ihy ihn =>
    simp only [idents, targets, reads, List.mem_append, ihc, ihy, ihn]
    rw [or_or_or_comm (a := x ∈ y.targets), or_or_or_comm]
  | binary op l r ihl ihr =>
    cases htarget : op.target? l with
    | none =>
      simp only [idents, targets, reads, htarget, Option.toList_none, Option.isSome_none,
        Bool.false_eq_true, if_false, List.nil_append, List.mem_append, ihl, ihr]
      exact or_or_or_comm
    | some y =>
      obtain rfl := BinaryOp.eq_ident_of_target?_eq_some htarget
      simp only [idents, targets, reads, htarget, Option.toList_some, Option.isSome_some, if_true,
        List.nil_append, List.mem_append, ihr]
      exact or_assoc.symm

lemma ident_mem_lexemes (h : x ∈ e.idents) : .ident x ∈ e.lexemes := by
  induction e with
  | number n => cases h
  | ident y =>
    obtain rfl := List.mem_singleton.mp h
    exact List.mem_singleton_self _
  | unary op e ih => cases op <;> simp [lexemes, ih h]
  | group e ih => simp [lexemes, ih h]
  | binary op l r ihl ihr =>
    rcases List.mem_append.mp h with h | h
    · simp [lexemes, ihl h]
    · simp [lexemes, ihr h]
  | conditional c y n ihc ihy ihn =>
    simp only [idents, List.mem_append] at h
    rcases h with h | h | h
    · simp [lexemes, ihc h]
    · simp [lexemes, ihy h]
    · simp [lexemes, ihn h]

/-- The names in the tree of a text are identifiers of the text. -/
theorem named_of_ofText {text : String} {ts : List Token} {allowance : Allowance}
    (hts : Token.ofText text = .ok ts) (he : ofTokens allowance ts = .ok e) : e.Named := by
  intro x hx
  have hmem := ident_mem_lexemes hx
  rw [← (spelled_of_ofTokens he).2, List.mem_map] at hmem
  obtain ⟨t, ht, hlexeme⟩ := hmem
  obtain ⟨hkind, rfl⟩ := Token.lexeme_eq_ident_iff.mp hlexeme
  rw [← hkind]
  exact (Token.isCut_of_ofText hts).spelled t ht

end Expr

end Calculator
