import Calculator.Entries
import Calculator.Text.Decimal
import Calculator.Text.Quoted

/-!
# Environments

The variables of a session with their values, in the order of their first assignment. Assigning to a
variable again keeps its place. An environment is what a mapping holds at one time, so it can be
kept by holding on to it.
-/

namespace Calculator

open Text

/-- Variables with their values, each variable once. -/
@[ext]
structure Environment where
  entries : List (String × Int)
  distinct : (entries.map Prod.fst).Nodup
  deriving DecidableEq

namespace Environment

/-- The environment without variables. -/
def empty : Environment := ⟨[], by simp⟩

/-- The names of the variables, in the order of their first assignment. -/
def names (env : Environment) : List String := env.entries.map Prod.fst

/-- The value of a variable, if it has one. -/
def get? (env : Environment) (name : String) : Option Int := env.entries.lookup name

/-- Whether a variable has a value. -/
def contains (env : Environment) (name : String) : Bool := (env.get? name).isSome

/-- The number of variables. -/
def size (env : Environment) : Nat := env.entries.length

/-- Assigns a value to a variable. -/
def set (env : Environment) (name : String) (value : Int) : Environment :=
  ⟨Entries.put name value env.entries, Entries.nodup_put env.distinct⟩

/-- Makes a list of assignments, in order. -/
def commit (env : Environment) (writes : List (String × Int)) : Environment :=
  writes.foldl (fun env w => env.set w.1 w.2) env

/-- The environment after assigning to each name of a list in order. -/
def ofEntries (entries : List (String × Int)) : Environment := empty.commit entries

/-- The variables with their values, sorted by the code points of the names. -/
def sorted (env : Environment) : List (String × Int) :=
  env.entries.mergeSort fun a b => a.1 ≤ b.1

/-- An environment as a value in messages for developers, unless a value is too long for them. -/
def debugText? (env : Environment) : Option String :=
  if env.entries.all fun e => Decimal.fitsMessage e.2 then
    let shown := env.entries.map fun e => quoted e.1 ++ ": " ++ Decimal.ofInt e.2
    some ("Environment(\x7b" ++ ", ".intercalate shown ++ "\x7d)")
  else none

/-! ### What assigning changes -/

@[simp] theorem get?_empty (name : String) : empty.get? name = none := rfl

theorem get?_set (env : Environment) (name other : String) (value : Int) :
    (env.set name value).get? other = if other = name then some value else env.get? other :=
  Entries.lookup_put name other value env.entries

theorem names_set (env : Environment) (name : String) (value : Int) :
    (env.set name value).names = if name ∈ env.names then env.names else env.names ++ [name] :=
  Entries.map_fst_put name value env.entries

@[simp] theorem commit_nil (env : Environment) : env.commit [] = env := rfl

@[simp] theorem commit_cons (env : Environment) (w : String × Int) (ws : List (String × Int)) :
    env.commit (w :: ws) = (env.set w.1 w.2).commit ws := rfl

theorem commit_append (env : Environment) (ws ws' : List (String × Int)) :
    env.commit (ws ++ ws') = (env.commit ws).commit ws' := List.foldl_append

end Environment

end Calculator
