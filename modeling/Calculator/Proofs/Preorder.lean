import Calculator.Expr.Display
import Calculator.Proofs.Grammar.Names
import Calculator.Proofs.Numeral.Canonical

/-!
# Trees as lists of nodes

The nodes of a tree can be listed in preorder, each with its depth. A node is labelled by its
operator, its number or its name, and the labels and depths alone determine the tree: the depths
tell which nodes are operands of a node, and a node with as many operands as its label stands on can
be of one sort only. For this, names must not look like numerals, as no identifier does.
-/

namespace Calculator

open Text

lemma UnaryOp.symbol_injective : Function.Injective UnaryOp.symbol := by
  intro op op' h
  cases op <;> cases op' <;> first | rfl | exact absurd h (by decide)

lemma BinaryOp.symbol_injective : Function.Injective BinaryOp.symbol := by
  intro op op' h
  cases op <;> cases op' <;> first | rfl | exact absurd h (by decide)

namespace Expr

/-! ### Operands -/

/-- The operands of the outermost node of a tree, from left to right. -/
def children : Expr → List Expr
  | .number _ | .ident _ => []
  | .unary _ e | .group e => [e]
  | .binary _ l r => [l, r]
  | .conditional c y n => [c, y, n]

/-- What holds of every tree if it holds of its operands holds of all trees. -/
theorem inductionOnChildren {motive : Expr → Prop}
    (step : ∀ e : Expr, (∀ child ∈ e.children, motive child) → motive e) (e : Expr) : motive e := by
  induction e with
  | number n => exact step _ nofun
  | ident x => exact step _ nofun
  | unary op e ih => exact step _ (by simpa [children] using ih)
  | group e ih => exact step _ (by simpa [children] using ih)
  | binary op l r ihl ihr => exact step _ (by simpa [children] using ⟨ihl, ihr⟩)
  | conditional c y n ihc ihy ihn => exact step _ (by simpa [children] using ⟨ihc, ihy, ihn⟩)

/-- All nodes of a tree, a node before its operands, and how many nodes each of them is below the
root of a tree in which this one is at `depth`. -/
def preorder (depth : Nat) : Expr → List (Nat × Expr)
  | .number n => [(depth, .number n)]
  | .ident x => [(depth, .ident x)]
  | .unary op e => (depth, .unary op e) :: e.preorder (depth + 1)
  | .group e => (depth, .group e) :: e.preorder (depth + 1)
  | .binary op l r =>
    (depth, .binary op l r) :: (l.preorder (depth + 1) ++ r.preorder (depth + 1))
  | .conditional c y n =>
    (depth, .conditional c y n) ::
      (c.preorder (depth + 1) ++ (y.preorder (depth + 1) ++ n.preorder (depth + 1)))

lemma preorder_eq (depth : Nat) (e : Expr) :
    e.preorder depth = (depth, e) :: e.children.flatMap (preorder (depth + 1)) := by
  cases e <;> simp [preorder, children]

variable {e e' c : Expr} {x : String}

lemma Named.child (h : e.Named) (hchild : c ∈ e.children) : c.Named := by
  intro x hx
  apply h
  cases e with
  | number _ => cases hchild
  | ident _ => cases hchild
  | unary _ _ | group _ =>
    obtain rfl := List.mem_singleton.mp hchild
    exact hx
  | binary _ _ _ =>
    simp only [children, List.mem_cons, List.not_mem_nil, or_false] at hchild
    rcases hchild with rfl | rfl <;> simp [idents, hx]
  | conditional _ _ _ =>
    simp only [children, List.mem_cons, List.not_mem_nil, or_false] at hchild
    rcases hchild with rfl | rfl | rfl <;> simp [idents, hx]

/-! ### Labels -/

lemma unary_label_ne_parens (op : UnaryOp) : "Unary " ++ op.symbol ≠ "Parens" := by
  cases op <;> decide

/-- A numeral begins with a digit or a minus sign, and digits are all that follows. -/
lemma exists_toList_ofInt (v : Int) : ∃ c w, (Decimal.ofInt v).toList = c :: w ∧
    (c = '-' ∨ isDigit c = true) ∧ ∀ d ∈ w, isDigit d = true := by
  obtain ⟨ds, hds, htext⟩ := Decimal.canonical_iff.mpr (Eq.refl (Decimal.ofInt v))
  split at htext
  · exact ⟨'-', ds, htext, .inl rfl, hds.isDigit⟩
  · obtain ⟨d, ds, rfl⟩ := List.exists_cons_of_ne_nil hds.ne_nil
    obtain ⟨hd, hds⟩ := List.forall_mem_cons.mp hds.isDigit
    exact ⟨d, ds, htext, .inr hd, hds⟩

lemma ne_ofInt_of_spelled (hx : Token.Kind.identifier.Spelled x.toList) (v : Int) :
    Decimal.ofInt v ≠ x := by
  rintro rfl
  obtain ⟨c, w, htext, hc, -⟩ := exists_toList_ofInt v
  rw [htext] at hx
  have hletter : isLetter c = true := hx.isLetter_iff.mpr trivial
  rcases hc with rfl | hdigit
  · exact absurd hletter (by decide)
  · rw [isLetter_eq_false_of_isDigit hdigit] at hletter
    cases hletter

/-- A node is determined by its label and its operands. -/
lemma eq_of_label_eq (h : e.Named) (h' : e'.Named) (hlabel : e.label = e'.label)
    (hchildren : e.children = e'.children) : e = e' := by
  have hname {x : String} (h : (ident x).Named) (v : Int) : Decimal.ofInt v ≠ x :=
    ne_ofInt_of_spelled (h x (List.mem_singleton_self x)) v
  cases e with
  | number v =>
    cases e' with
    | number w => rw [Decimal.ofInt_injective hlabel]
    | ident x => exact absurd hlabel (hname h' v)
    | _ => cases hchildren
  | ident x =>
    cases e' with
    | number v => exact absurd hlabel.symm (hname h v)
    | ident y => exact congrArg ident hlabel
    | _ => cases hchildren
  | unary op c =>
    cases e' with
    | unary op' c' =>
      rw [UnaryOp.symbol_injective (String.append_right_inj _ |>.mp hlabel),
        (List.cons.inj hchildren).1]
    | group c' => exact absurd hlabel (unary_label_ne_parens op)
    | _ => cases hchildren
  | group c =>
    cases e' with
    | unary op' c' => exact absurd hlabel.symm (unary_label_ne_parens op')
    | group c' => exact congrArg group ((List.cons.inj hchildren).1)
    | _ => cases hchildren
  | binary op l r =>
    cases e' with
    | binary op' l' r' =>
      cases hchildren
      rw [BinaryOp.symbol_injective (String.append_right_inj _ |>.mp hlabel)]
    | _ => cases hchildren
  | conditional c y n =>
    cases e' with
    | conditional c' y' n' => cases hchildren; rfl
    | _ => cases hchildren

/-! ### Labels with depths -/

/-- The labels of all nodes of a tree in preorder, with the depths of the nodes. -/
def rows (depth : Nat) (e : Expr) : List (Nat × String) :=
  (e.preorder depth).map fun node => (node.1, node.2.label)

lemma rows_eq (depth : Nat) (e : Expr) :
    e.rows depth = (depth, e.label) :: e.children.flatMap (rows (depth + 1)) := by
  rw [rows, preorder_eq, List.map_cons, List.map_flatMap]
  rfl

/-- The rows do not go on with a node at `depth` or deeper. -/
def EndsAbove (depth : Nat) (rows : List (Nat × String)) : Prop := ∀ row ∈ rows.head?, row.1 < depth

variable {depth : Nat} {rest rest' : List (Nat × String)}

lemma not_endsAbove_rows (e : Expr) (rest : List (Nat × String)) :
    ¬ EndsAbove depth (e.rows depth ++ rest) := by
  intro h
  rw [rows_eq] at h
  exact absurd (h _ rfl) (Nat.lt_irrefl depth)

lemma endsAbove_flatMap_rows (es : List Expr) (h : EndsAbove depth rest) :
    EndsAbove (depth + 1) (es.flatMap (rows depth) ++ rest) := by
  cases es with
  | nil => exact fun row hrow => Nat.lt_succ_of_lt (h row hrow)
  | cons e es =>
    rw [List.flatMap_cons, rows_eq]
    rintro row ⟨⟩
    exact Nat.lt_succ_self depth

/-- The tree can be told from the rows that begin with its own, and so can the end of its rows. -/
def Recoverable (e : Expr) : Prop :=
  ∀ (e' : Expr) (depth : Nat) (rest rest' : List (Nat × String)), e.Named → e'.Named →
    EndsAbove (depth + 1) rest → EndsAbove (depth + 1) rest' →
    e.rows depth ++ rest = e'.rows depth ++ rest' → e = e' ∧ rest = rest'

/-- What holds of the rows of single trees holds of those of trees side by side. -/
lemma eq_of_flatMap_rows_eq {es es' : List Expr} (hes : ∀ e ∈ es, e.Recoverable)
    (hn : ∀ e ∈ es, e.Named) (hn' : ∀ e ∈ es', e.Named) (hrest : EndsAbove depth rest)
    (hrest' : EndsAbove depth rest')
    (h : es.flatMap (rows depth) ++ rest = es'.flatMap (rows depth) ++ rest') :
    es = es' ∧ rest = rest' := by
  induction es generalizing es' with
  | nil =>
    cases es' with
    | nil => exact ⟨rfl, h⟩
    | cons e' es' =>
      rw [List.flatMap_cons, List.append_assoc] at h
      have hrest : EndsAbove depth (([] : List Expr).flatMap (rows depth) ++ rest) := hrest
      rw [h] at hrest
      exact absurd hrest (not_endsAbove_rows e' _)
  | cons e es ih =>
    cases es' with
    | nil =>
      rw [List.flatMap_cons, List.append_assoc] at h
      have hrest' : EndsAbove depth (([] : List Expr).flatMap (rows depth) ++ rest') := hrest'
      rw [← h] at hrest'
      exact absurd hrest' (not_endsAbove_rows e _)
    | cons e' es' =>
      obtain ⟨he, hes⟩ := List.forall_mem_cons.mp hes
      obtain ⟨hn, hns⟩ := List.forall_mem_cons.mp hn
      obtain ⟨hn', hns'⟩ := List.forall_mem_cons.mp hn'
      rw [List.flatMap_cons, List.flatMap_cons, List.append_assoc, List.append_assoc] at h
      obtain ⟨rfl, htail⟩ := he e' depth _ _ hn hn' (endsAbove_flatMap_rows es hrest)
        (endsAbove_flatMap_rows es' hrest') h
      obtain ⟨rfl, hend⟩ := ih hes hns hns' htail
      exact ⟨rfl, hend⟩

theorem recoverable (e : Expr) : e.Recoverable := by
  induction e using inductionOnChildren with
  | step e ih =>
    intro e' depth rest rest' hn hn' hrest hrest' h
    rw [rows_eq, rows_eq, List.cons_append, List.cons_append] at h
    obtain ⟨hrow, htail⟩ := List.cons_eq_cons.mp h
    -- the next operand or the rest behind the tree begins where the rows are not as deep any more
    obtain ⟨hchildren, hend⟩ := eq_of_flatMap_rows_eq ih (fun _ => hn.child) (fun _ => hn'.child)
      hrest hrest' htail
    exact ⟨eq_of_label_eq hn hn' (Prod.mk.inj hrow).2 hchildren, hend⟩

/-- Depths and labels in preorder determine a tree. -/
theorem eq_of_rows_eq (hn : e.Named) (hn' : e'.Named) (h : e.rows depth = e'.rows depth) :
    e = e' :=
  (recoverable e e' depth [] [] hn hn' nofun nofun (congrArg (· ++ []) h)).1

end Expr

end Calculator
