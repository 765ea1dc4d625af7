import Calculator.Entries

/-!
# References to variables

A text may refer to a variable as `${NAME}`, or as `${NAME:-TEXT}` with an alternative for a
variable that is not known. Expanding the text puts values in place of the references. What is put
in is not expanded again, and what does not form a reference stays as it is.
-/

namespace Calculator.EnvFile

/-- A reference to a variable. -/
structure Reference where
  name : String
  alternative : String
  deriving DecidableEq

namespace Reference

/-- Reads a reference behind its opening brace, and returns it with what follows it. -/
def read? (cs : List Char) : Option (Reference × List Char) :=
  let inName (c : Char) : Bool := c ≠ '\x7d' && c ≠ ':'
  let name := String.ofList (cs.takeWhile inName)
  match cs.dropWhile inName with
  | '\x7d' :: rest => some (⟨name, ""⟩, rest)
  | ':' :: '-' :: rest =>
    match rest.dropWhile (· ≠ '\x7d') with
    | [] => none
    | _ :: after => some (⟨name, String.ofList (rest.takeWhile (· ≠ '\x7d'))⟩, after)
  | _ => none

theorem length_le_of_read? {cs rest : List Char} {r : Reference} (h : read? cs = some (r, rest)) :
    rest.length ≤ cs.length := by
  have shorter (p : Char → Bool) (l : List Char) : (l.dropWhile p).length ≤ l.length :=
    (List.dropWhile_suffix p).length_le
  unfold read? at h
  dsimp only at h
  split at h
  · next after heq =>
    have := shorter (fun c => decide (c ≠ '\x7d') && decide (c ≠ ':')) cs
    rw [heq, List.length_cons] at this
    simp only [Option.some.injEq, Prod.mk.injEq] at h
    rw [← h.2]
    omega
  · next after heq =>
    have outer := shorter (fun c => decide (c ≠ '\x7d') && decide (c ≠ ':')) cs
    rw [heq, List.length_cons, List.length_cons] at outer
    split at h
    · simp at h
    · next d tail heq' =>
      have inner := shorter (fun c => decide (c ≠ '\x7d')) after
      rw [heq', List.length_cons] at inner
      simp only [Option.some.injEq, Prod.mk.injEq] at h
      rw [← h.2]
      omega
  · simp at h

/-- The text that a reference stands for. -/
def text (value? : String → Option String) (r : Reference) : String :=
  (value? r.name).getD r.alternative

end Reference

/-- Puts values in place of the references of a text. -/
def expand (value? : String → Option String) : List Char → List Char
  | [] => []
  | c :: cs =>
    if c = '$' ∧ cs.head? = some '\x7b' then
      match _ : Reference.read? cs.tail with
      | some (r, rest) => (r.text value?).toList ++ expand value? rest
      | none => c :: expand value? cs
    else c :: expand value? cs
termination_by cs => cs.length
decreasing_by
  · have := Reference.length_le_of_read? ‹_›
    simp only [List.length_tail, List.length_cons] at this ⊢
    omega
  · simp
  · simp

/-- A text with values in place of its references. -/
def expandText (value? : String → Option String) (text : String) : String :=
  String.ofList (expand value? text.toList)

/-- The names of the variables that a text may refer to. -/
def namesIn : List Char → List String
  | [] => []
  | c :: cs =>
    match c, cs with
    | '$', '\x7b' :: rest =>
      match Reference.read? rest with
      | some (r, _) => r.name :: namesIn cs
      | none => namesIn cs
    | _, _ => namesIn cs

end Calculator.EnvFile
