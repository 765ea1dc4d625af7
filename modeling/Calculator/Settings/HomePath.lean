/-!
# Paths under the home directory

A path that starts with a tilde, alone or before a slash, lies in the home directory. A tilde before
the name of a user is left alone, but no such name holds a null character.
-/

namespace Calculator.HomePath

/-- What lies at `rest` under the home directory, which may end in slashes. Without a home directory
the tilde stays. -/
def inHome (home : Option String) (rest : List Char) : String :=
  match home with
  | none => String.ofList ('~' :: rest)
  | some home =>
    match (home.toList.reverse.dropWhile (· = '/')).reverse ++ rest with
    | [] => "/"
    | full => String.ofList full

/-- A path with a leading tilde replaced by the home directory, if it names no impossible user. -/
def expand? (home : Option String) (path : String) : Option String :=
  match path.toList with
  | '~' :: rest =>
    let user := rest.takeWhile (· ≠ '/')
    if user = [] then some (inHome home rest)
    else if '\x00' ∈ user then none
    else some path
  | _ => some path

end Calculator.HomePath
