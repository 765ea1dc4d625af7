import Calculator.Proofs.Preorder
import Mathlib.Data.List.Forall2

/-!
# Drawings of trees

A drawing has one line for each node, in preorder, and the label of a node stands behind as many
columns of branches as its depth demands. A label never begins with what branches are drawn with, so
a line shows a depth and a label and no others, and the tree can be told from the drawing.
-/

namespace Calculator

open Text

namespace Expr

variable {e e' : Expr} {allowance : Allowance} {indent line : String} {last : Bool}
  {lines : List String} {m n depth : Nat}

/-! ### Indents -/

/-- Whether branches are drawn with the character. -/
def isConnector (c : Char) : Bool := c = ' ' || c = '|' || c = '└' || c = '├' || c = '─'

/-- The text is so many columns wide, and only branches are drawn in it. -/
structure Indents (columns : Nat) (indent : String) : Prop where
  length : indent.toList.length = columns
  connectors : ∀ c ∈ indent.toList, isConnector c = true

namespace Indents

variable {s t : String}

lemma empty : Indents 0 "" := ⟨rfl, nofun⟩

lemma append (hs : Indents m s) (ht : Indents n t) : Indents (m + n) (s ++ t) where
  length := by rw [String.toList_append, List.length_append, hs.length, ht.length]
  connectors c hc := by
    rw [String.toList_append, List.mem_append] at hc
    exact hc.elim (hs.connectors c) (ht.connectors c)

lemma branch (last : Bool) : Indents 4 (branch last) := by
  cases last <;> exact ⟨rfl, List.all_eq_true.mp rfl⟩

lemma trunk (last : Bool) : Indents 4 (trunk last) := by
  cases last <;> exact ⟨rfl, List.all_eq_true.mp rfl⟩

lemma newline_notMem (hs : Indents n s) : '\n' ∉ s.toList := fun h =>
  absurd (hs.connectors '\n' h) (by decide)

end Indents

/-! ### Labels behind indents -/

/-- The text does not begin with a branch, and it is a single line. -/
def IsLabel (s : String) : Prop :=
  (∃ c ∈ s.toList.head?, isConnector c = false) ∧ '\n' ∉ s.toList

lemma isLabel_unary (op : UnaryOp) : IsLabel ("Unary " ++ op.symbol) := by
  refine ⟨⟨'U', ?_, rfl⟩, ?_⟩
  · cases op <;> rfl
  · cases op <;> decide

lemma isLabel_binary (op : BinaryOp) : IsLabel ("Binary " ++ op.symbol) := by
  refine ⟨⟨'B', ?_, rfl⟩, ?_⟩
  · cases op <;> rfl
  · cases op <;> decide

lemma isConnector_eq_false_of_isDigit {c : Char} (hc : isDigit c = true) :
    isConnector c = false := by
  by_contra h
  simp only [isConnector, Bool.not_eq_false, Bool.or_eq_true, decide_eq_true_eq] at h
  rcases h with (((rfl | rfl) | rfl) | rfl) | rfl <;> exact absurd hc (by decide)

lemma isConnector_eq_false_of_isLetter {c : Char} (hc : isLetter c = true) :
    isConnector c = false := by
  by_contra h
  simp only [isConnector, Bool.not_eq_false, Bool.or_eq_true, decide_eq_true_eq] at h
  rcases h with (((rfl | rfl) | rfl) | rfl) | rfl <;> exact absurd hc (by decide +kernel)

lemma isLabel_ofInt (v : Int) : IsLabel (Decimal.ofInt v) := by
  obtain ⟨c, w, htext, hc, hw⟩ := exists_toList_ofInt v
  rw [IsLabel, htext]
  constructor
  · refine ⟨c, rfl, ?_⟩
    rcases hc with rfl | hc
    · decide
    · exact isConnector_eq_false_of_isDigit hc
  · intro hmem
    have hnewline : '\n' = '-' ∨ isDigit '\n' = true := by
      rcases List.mem_cons.mp hmem with rfl | hmem
      · exact hc
      · exact .inr (hw '\n' hmem)
    exact absurd hnewline (by decide)

lemma isLabel_of_spelled {x : String} (hx : Token.Kind.identifier.Spelled x.toList) :
    IsLabel x := by
  obtain ⟨c, w, htext⟩ := List.exists_cons_of_ne_nil hx.ne_nil
  rw [htext] at hx
  obtain ⟨hc, hw, -⟩ := hx.word trivial
  rw [IsLabel, htext]
  refine ⟨⟨c, rfl, isConnector_eq_false_of_isLetter hc⟩, fun hmem => ?_⟩
  have hnewline : Token.isSpace '\n' = true := by decide
  rcases List.mem_cons.mp hmem with rfl | hmem
  · rw [hx.isSpace_eq_false] at hnewline
    cases hnewline
  · have htail := hw '\n' hmem
    rw [not_isWordTail_of_isSpace hnewline] at htail
    cases htail

theorem isLabel_label (h : e.Named) : IsLabel e.label := by
  cases e with
  | number v => exact isLabel_ofInt v
  | ident x => exact isLabel_of_spelled (h x (List.mem_singleton_self x))
  | unary op _ => exact isLabel_unary op
  | binary op _ _ => exact isLabel_binary op
  | group _ => exact (⟨⟨'P', rfl, rfl⟩, by decide⟩ : IsLabel "Parens")
  | conditional _ _ _ => exact (⟨⟨'I', rfl, rfl⟩, by decide⟩ : IsLabel "If")

/-- Where an indent ends and a label begins can be told from what they are together. -/
lemma append_label_inj {s s' t t' : String} (hs : Indents m s) (hs' : Indents n s')
    (ht : IsLabel t) (ht' : IsLabel t') (h : s ++ t = s' ++ t') : s = s' ∧ t = t' := by
  have indent_eq {s t : String} {k : Nat} (hs : Indents k s) (ht : IsLabel t) :
      (s ++ t).toList.takeWhile isConnector = s.toList := by
    obtain ⟨⟨c, hhead, hc⟩, -⟩ := ht
    obtain ⟨w, hw⟩ := List.head?_eq_some_iff.mp hhead
    rw [String.toList_append, hw, List.takeWhile_append_of_pos hs.connectors,
      List.takeWhile_cons_of_neg (by simp [hc]), List.append_nil]
  obtain rfl : s = s' := by
    rw [← String.toList_inj, ← indent_eq hs ht, h, indent_eq hs' ht']
  exact ⟨rfl, (String.append_right_inj s).mp h⟩

/-! ### Lines -/

/-- The line shows the label of a node, in the column that belongs to its depth. -/
def Shows (line : String) (node : Nat × Expr) : Prop :=
  ∃ indent, Indents (4 * (node.1 + 1)) indent ∧ line = indent ++ node.2.label

/-- A line shows one depth and one label. -/
lemma Shows.row_eq {node node' : Nat × Expr} (h : Shows line node) (h' : Shows line node')
    (hn : node.2.Named) (hn' : node'.2.Named) :
    (node.1, node.2.label) = (node'.1, node'.2.label) := by
  obtain ⟨indent, hindent, rfl⟩ := h
  obtain ⟨indent', hindent', hline⟩ := h'
  obtain ⟨rfl, hlabel⟩ := append_label_inj hindent hindent' (isLabel_label hn)
    (isLabel_label hn') hline
  have hdepth : node.1 = node'.1 := by
    have hlength := hindent.length
    rw [hindent'.length] at hlength
    omega
  rw [hdepth, hlabel]

lemma Shows.newline_notMem {node : Nat × Expr} (h : Shows line node) (hn : node.2.Named) :
    '\n' ∉ line.toList := by
  obtain ⟨indent, hindent, rfl⟩ := h
  rw [String.toList_append, List.mem_append]
  exact fun hmem => hmem.elim hindent.newline_notMem (isLabel_label hn).2

/-- The lines of a tree are the one of its outermost node and blocks of lines of its operands. -/
lemma exists_blocks (h : e.lines? allowance indent last = some lines) :
    ∃ (inner : Allowance) (blocks : List (List String)),
      lines = (indent ++ branch last ++ e.label) :: blocks.flatten ∧
        List.Forall₂ (fun operand block =>
          ∃ last', operand.lines? inner (indent ++ trunk last) last' = some block)
          e.children blocks := by
  unfold lines? at h
  cases hspend : allowance.spend? with
  | none => simp [hspend] at h
  | some inner =>
    simp only [hspend] at h
    refine ⟨inner, ?_⟩
    cases e with
    | number _ | ident _ =>
      cases h
      exact ⟨[], rfl, .nil⟩
    | unary _ c | group c =>
      obtain ⟨block, hblock, hlines⟩ := Option.bind_eq_some_iff.mp h
      cases hlines
      exact ⟨[block], by simp, .cons ⟨_, hblock⟩ .nil⟩
    | binary _ l r =>
      obtain ⟨left, hleft, h⟩ := Option.bind_eq_some_iff.mp h
      obtain ⟨right, hright, hlines⟩ := Option.bind_eq_some_iff.mp h
      cases hlines
      exact ⟨[left, right], by simp, .cons ⟨_, hleft⟩ (.cons ⟨_, hright⟩ .nil)⟩
    | conditional c y n =>
      obtain ⟨condition, hcondition, h⟩ := Option.bind_eq_some_iff.mp h
      obtain ⟨yes, hyes, h⟩ := Option.bind_eq_some_iff.mp h
      obtain ⟨no, hno, hlines⟩ := Option.bind_eq_some_iff.mp h
      cases hlines
      exact ⟨[condition, yes, no], by simp,
        .cons ⟨_, hcondition⟩ (.cons ⟨_, hyes⟩ (.cons ⟨_, hno⟩ .nil))⟩

/-- The lines of a tree show its nodes one after the other. -/
theorem shows_of_lines?_eq_some (hindent : Indents (4 * depth) indent)
    (h : e.lines? allowance indent last = some lines) :
    List.Forall₂ Shows lines (e.preorder depth) := by
  induction e using inductionOnChildren generalizing depth allowance indent last lines with
  | step e ih =>
    obtain ⟨inner, blocks, rfl, hblocks⟩ := exists_blocks h
    rw [preorder_eq]
    refine .cons ⟨_, hindent.append (.branch last), rfl⟩ ?_
    have hinner : Indents (4 * (depth + 1)) (indent ++ trunk last) := hindent.append (.trunk last)
    have hshows : List.Forall₂ (List.Forall₂ Shows) blocks
        (e.children.map (preorder (depth + 1))) := by
      rw [List.forall₂_map_right_iff]
      refine ((List.forall₂_and_left _ _).mpr ⟨fun _ => id, hblocks⟩).flip.imp ?_
      rintro block operand ⟨hoperand, last', hblock⟩
      exact ih operand hoperand hinner hblock
    exact List.rel_flatten hshows

/-! ### Drawings -/

/-- The lines of a text. -/
def textLines (text : String) : List String := (text.toList.splitOn '\n').map String.ofList

lemma textLines_intercalate (hne : lines ≠ []) (hlines : ∀ line ∈ lines, '\n' ∉ line.toList) :
    textLines ("\n".intercalate lines) = lines := by
  have hsplit : ("\n".intercalate lines).toList.splitOn '\n' = lines.map String.toList := by
    rw [String.toList_intercalate]
    exact List.splitOn_intercalate '\n' (List.forall_mem_map.mpr hlines) (by simpa using hne)
  rw [textLines, hsplit, List.map_map]
  simp

lemma Named.of_mem_preorder {node : Nat × Expr} (h : e.Named) (hnode : node ∈ e.preorder depth) :
    node.2.Named := by
  induction e using inductionOnChildren generalizing depth with
  | step e ih =>
    rw [preorder_eq, List.mem_cons, List.mem_flatMap] at hnode
    obtain rfl | ⟨operand, hoperand, hnode⟩ := hnode
    · exact h
    · exact ih operand hoperand (h.child hoperand) hnode

lemma newline_notMem_of_shows {nodes : List (Nat × Expr)} (h : List.Forall₂ Shows lines nodes)
    (hn : ∀ node ∈ nodes, node.2.Named) : ∀ line ∈ lines, '\n' ∉ line.toList := by
  induction h with
  | nil => exact nofun
  | cons hline _ ih =>
    obtain ⟨hnode, hnodes⟩ := List.forall_mem_cons.mp hn
    exact List.forall_mem_cons.mpr ⟨hline.newline_notMem hnode, ih hnodes⟩

/-- The lines of a drawing show the nodes of the tree in preorder. -/
theorem shows_textLines {d : String} (hn : e.Named) (h : e.display? allowance = some d) :
    List.Forall₂ Shows (textLines d) (e.preorder 0) := by
  obtain ⟨lines, hlines, rfl⟩ := Option.map_eq_some_iff.mp h
  have hshows : List.Forall₂ Shows lines (e.preorder 0) :=
    shows_of_lines?_eq_some .empty hlines
  have hne : lines ≠ [] := by
    rintro rfl
    rw [preorder_eq] at hshows
    cases hshows
  rwa [textLines_intercalate hne
    (newline_notMem_of_shows hshows fun _ => hn.of_mem_preorder)]

/-- Lines show one sequence of depths and labels. -/
lemma rows_eq_of_shows {nodes nodes' : List (Nat × Expr)} (h : List.Forall₂ Shows lines nodes)
    (h' : List.Forall₂ Shows lines nodes') (hn : ∀ node ∈ nodes, node.2.Named)
    (hn' : ∀ node ∈ nodes', node.2.Named) :
    (nodes.map fun node => (node.1, node.2.label)) =
      nodes'.map fun node => (node.1, node.2.label) := by
  induction h generalizing nodes' with
  | nil =>
    cases h'
    rfl
  | cons hline hrest ih =>
    cases h' with
    | cons hline' hrest' =>
      obtain ⟨hnode, hnodes⟩ := List.forall_mem_cons.mp hn
      obtain ⟨hnode', hnodes'⟩ := List.forall_mem_cons.mp hn'
      rw [List.map_cons, List.map_cons, hline.row_eq hline' hnode hnode',
        ih hrest' hnodes hnodes']

/-- The drawings of trees of texts are unambiguous: if two of them are the same then so are the
trees, and the lines of a drawing are one for each node, in preorder, with the label of the node in
the column that its depth gives. -/
theorem drawing_determines_tree {text text' : String} {ts ts' : List Token}
    {reading reading' drawing drawing' : Allowance} {d : String}
    (hts : Token.ofText text = .ok ts) (he : ofTokens reading ts = .ok e)
    (hts' : Token.ofText text' = .ok ts') (he' : ofTokens reading' ts' = .ok e')
    (hd : e.display? drawing = some d) (hd' : e'.display? drawing' = some d) :
    e = e' ∧ List.Forall₂ Shows (textLines d) (e.preorder 0) := by
  have hn : e.Named := named_of_ofText hts he
  have hn' : e'.Named := named_of_ofText hts' he'
  have hshows := shows_textLines hn hd
  exact ⟨eq_of_rows_eq hn hn' (rows_eq_of_shows hshows (shows_textLines hn' hd')
    (fun _ => hn.of_mem_preorder) fun _ => hn'.of_mem_preorder), hshows⟩

/-- The names are spelled like the labels of groups and conditionals. -/
theorem drawing_determines_tree_labels :
    let text := "(Parens) + -If"
    let text' := "(Parens)+-If"
    let ts : List Token := [⟨.openParen, 0, 1, "("⟩, ⟨.identifier, 1, 7, "Parens"⟩,
      ⟨.closeParen, 7, 8, ")"⟩, ⟨.plus, 9, 10, "+"⟩, ⟨.minus, 11, 12, "-"⟩,
      ⟨.identifier, 12, 14, "If"⟩]
    let ts' : List Token := [⟨.openParen, 0, 1, "("⟩, ⟨.identifier, 1, 7, "Parens"⟩,
      ⟨.closeParen, 7, 8, ")"⟩, ⟨.plus, 8, 9, "+"⟩, ⟨.minus, 9, 10, "-"⟩,
      ⟨.identifier, 10, 12, "If"⟩]
    let e := binary .add (group (ident "Parens")) (unary .negate (ident "If"))
    let d := "└── Binary +\n    ├── Parens\n    |   └── Parens\n    └── Unary -\n        └── If"
    (Token.ofText text = .ok ts ∧ ofTokens .standard ts = .ok e ∧ e.display? .standard = some d) ∧
      (Token.ofText text' = .ok ts' ∧ ofTokens .unlimited ts' = .ok e ∧
        e.display? .unlimited = some d) ∧
      List.Forall₂ Shows (textLines d) (e.preorder 0) := by
  intro text text' ts ts' e d
  have hts : Token.ofText text = .ok ts := by decide +kernel
  have hts' : Token.ofText text' = .ok ts' := by decide +kernel
  have he : ofTokens .standard ts = .ok e := rfl
  have he' : ofTokens .unlimited ts' = .ok e := rfl
  have hd : e.display? .standard = some d := by decide +kernel
  have hd' : e.display? .unlimited = some d := by decide +kernel
  exact ⟨⟨hts, he, hd⟩, ⟨hts', he', hd'⟩, (drawing_determines_tree hts he hts' he' hd hd').2⟩

end Expr

end Calculator
