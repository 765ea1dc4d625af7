import Calculator.Environment.Memory
import Calculator.Expr.Evaluation

/-!
# Programs of environment steps

A program works on an environment, on the mapping that the environment was made from and on the
snapshots taken so far. The environment has a mapping of its own, and a snapshot is a copy of it. A
transaction is a block of steps that begins with saving a copy: if one of the steps fails, the block
ends there and the environment is restored from the copy, and the failure is part of the block's
answer.
-/

namespace Calculator.Environment

/-- A step of a program. -/
inductive Step where
  | set (name : String) (value : Int)
  | get (name : String)
  | contains (name : String)
  | size
  | debugText
  | snapshot
  | restore (index : Nat)
  | amendSnapshot (index : Nat) (name : String) (value : Int)
  | amendInitial (name : String) (value : Int)
  | fail (error : EvalError)
  | transaction (steps : List Step)

/-- The answer to a step that does not fail. The answer to a transaction holds those to its steps,
each with the sorted variables after it, and the failure that ended it. -/
inductive Answer where
  | done
  | value (value : Int)
  | truth (truth : Bool)
  | count (count : Nat)
  | text (text : String)
  | entries (entries : List (String × Int))
  | block (answers : List (Answer × List (String × Int))) (failure : Option EvalError)

/-- What a program works on: where the mapping of the environment is, the one that it was made
from, and the snapshots. -/
structure Workspace where
  memory : Memory
  env : Address
  initial : Address
  snapshots : List Address

namespace Workspace

/-- The workspace at the start of a program. -/
def ofEntries (entries : List (String × Int)) : Workspace :=
  let memory : Memory := ⟨[.ofEntries entries]⟩
  ⟨memory.copy 0, memory.next, 0, []⟩

/-- The variables of the environment. -/
def current (w : Workspace) : Environment := w.memory.read w.env

/-- Assigns a value to a variable of the mapping at an address. -/
def assign (w : Workspace) (a : Address) (name : String) (value : Int) : Workspace :=
  { w with memory := w.memory.set a name value }

/-- Makes a copy of the environment's mapping, which is then at the address `w.memory.next`. -/
def save (w : Workspace) : Workspace := { w with memory := w.memory.copy w.env }

/-- Keeps a copy of the environment's mapping as a snapshot. -/
def snapshot (w : Workspace) : Workspace :=
  { w.save with snapshots := w.snapshots ++ [w.memory.next] }

/-- Gives the environment a copy of the mapping at an address. -/
def restore (w : Workspace) (a : Address) : Workspace :=
  { w with memory := w.memory.copy a, env := w.memory.next }

end Workspace

/-- How a block of steps went: the answers up to a failure, the failure, and the workspace after
them. -/
structure Block where
  answers : List (Answer × List (String × Int))
  failure : Option EvalError
  workspace : Workspace

mutual

/-- Makes a step. A step that fails changes nothing. -/
def Step.run : Step → Workspace → Except EvalError Answer × Workspace
  | .set name value, w => (.ok .done, w.assign w.env name value)
  | .get name, w =>
    match w.current.get? name with
    | some v => (.ok (.value v), w)
    | none => (.error (.undefinedVariable name), w)
  | .contains name, w => (.ok (.truth (w.current.contains name)), w)
  | .size, w => (.ok (.count w.current.size), w)
  | .debugText, w =>
    match w.current.debugText? with
    | some text => (.ok (.text text), w)
    | none => (.error (.arithmetic .numeralTooLong), w)
  | .snapshot, w => (.ok (.entries w.current.sorted), w.snapshot)
  | .restore index, w => (.ok .done, (w.snapshots[index]?.map w.restore).getD w)
  | .amendSnapshot index name value, w =>
    (.ok .done, (w.snapshots[index]?.map fun a => w.assign a name value).getD w)
  | .amendInitial name value, w => (.ok .done, w.assign w.initial name value)
  | .fail error, w => (.error error, w)
  | .transaction steps, w =>
    let block := Step.runBlock steps w.save
    match block.failure with
    | none => (.ok (.block block.answers none), block.workspace)
    | some e => (.ok (.block block.answers (some e)), block.workspace.restore w.memory.next)

/-- Makes the steps of a block up to the first one that fails. -/
def Step.runBlock : List Step → Workspace → Block
  | [], w => ⟨[], none, w⟩
  | step :: steps, w =>
    match step.run w with
    | (.error e, w) => ⟨[], some e, w⟩
    | (.ok answer, w) =>
      let block := Step.runBlock steps w
      { block with answers := (answer, w.current.sorted) :: block.answers }

end

/-- Makes steps outside of any block, where a failure is an answer too: the answer to each step and
the sorted variables after it, and the workspace in the end. -/
def Step.runAll : List Step → Workspace →
    List (Except EvalError Answer × List (String × Int)) × Workspace
  | [], w => ([], w)
  | step :: steps, w =>
    let (answer, w) := step.run w
    let (answers, last) := Step.runAll steps w
    ((answer, w.current.sorted) :: answers, last)

end Calculator.Environment
