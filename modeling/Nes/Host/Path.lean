/-!
# Paths

A path is a list of steps with slashes between.  The last step is its name, and a name's
extension is what follows its last dot, unless that dot comes first.

famicore names its save so, in `run`, by `with_extension`.
-/

namespace Nes.Path

/-- The steps between the slashes, empty ones included. -/
def steps : List Char → List (List Char)
  | [] => [[]]
  | c :: cs =>
    if c = '/' then [] :: steps cs
    else
      match steps cs with
      | [] => [[c]]
      | s :: rest => (c :: s) :: rest

/-- What stands before the name, the last slash included. -/
def folder (path : List Char) : List Char := (path.reverse.dropWhile (· != '/')).reverse

/-- What stands after the last slash. -/
def name (path : List Char) : List Char := (path.reverse.takeWhile (· != '/')).reverse

/-- A name without its extension. -/
def stem (name : List Char) : List Char :=
  match name.reverse.dropWhile (· != '.') with
  | [] | ['.'] => name
  | _ :: rest => rest.reverse

/-- The path with another extension in the place of the name's own. -/
def withExtension (path extension : String) : String :=
  let cs := path.toList
  String.ofList (folder cs ++ stem (name cs) ++ '.' :: extension.toList)

end Nes.Path
