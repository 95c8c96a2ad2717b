/-!
Paths as texts. These operations look at the text only, never at the files it may denote.
-/
namespace VtableMerge.Path

/-- The texts between slashes, of which some may be empty. -/
def split : List Char → List (List Char)
  | [] => [[]]
  | c :: cs =>
    if c = '/' then [] :: split cs
    else
      match split cs with
      | [] => [[c]]
      | part :: parts => (c :: part) :: parts

def parts (path : String) : List String := (split path.toList).map String.ofList

def isAbsolute (path : String) : Bool := path.toList.head? == some '/'

/-- The path of a name in a directory. The empty path denotes the current directory. -/
def join (directory name : String) : String :=
  if directory.isEmpty then name
  else if directory.toList.getLast? == some '/' then directory ++ name
  else directory ++ "/" ++ name

/-- The names of a path. Empty parts do not count, and a single dot only counts at the front. -/
def names (path : String) : List String :=
  match parts path with
  | [] => []
  | first :: rest =>
    (if first.isEmpty then [] else [first]) ++ rest.filter fun part => !part.isEmpty && part != "."

/-- The texts of the proper beginnings of a list of names, the longest first. -/
def beginnings (root : String) : List String → List String
  | [] => []
  | [_] => []
  | name :: rest => beginnings (root ++ name ++ "/") rest ++ [root ++ name]

/-- A path and the paths of the directories above it that it names, the nearest first. -/
def chain (path : String) : List String :=
  if path.isEmpty then []
  else if isAbsolute path then path :: beginnings "/" (names path) ++ ["/"]
  else path :: beginnings "" (names path)

end VtableMerge.Path
