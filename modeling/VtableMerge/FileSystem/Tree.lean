import VtableMerge.FileSystem

/-!
File trees in memory. A tree maps locations to entries; a location is the list of names on the
way from the root. Paths lead to locations through links and through the names for the current
directory and the one above. An entry may be read-only: a file there is not written, and nothing
new is put into a directory there.

Some things stay out. Every entry has one location, so there are no hard links. Everyone may read
every file and pass every directory. A write of one file takes place or is refused: no disk is
full and no write stops half way. Nobody else changes the tree meanwhile.
-/
namespace VtableMerge

inductive FileEntry
  | directory
  | file (content : List UInt8)
  | link (target : String)
deriving DecidableEq

abbrev Location := List String

/-- Entries by location. The root is a directory and not listed. -/
structure FileTree where
  entries : List (Location × FileEntry)
  readOnly : List Location

namespace FileTree

def empty : FileTree := ⟨[], []⟩

def entry? (t : FileTree) (loc : Location) : Option FileEntry :=
  if loc.isEmpty then some .directory else t.entries.lookup loc

def isReadOnly (t : FileTree) (loc : Location) : Bool := t.readOnly.contains loc

/-- Puts an entry at a location, in place of any other one there. It is not read-only. -/
def set (t : FileTree) (loc : Location) (entry : FileEntry) : FileTree :=
  ⟨(loc, entry) :: t.entries.filter fun e => e.1 != loc, t.readOnly.filter (· != loc)⟩

/-- Puts an entry at a location, unless what has to change for it is read-only: the file that it
replaces, or the directory that it is new in. -/
def put (t : FileTree) (changed loc : Location) (entry : FileEntry) : Except OsError FileTree :=
  if t.isReadOnly changed then .error .permissionDenied else .ok (t.set loc entry)

/-- Where a path leads: to an entry, or to a free location in an existing directory. -/
inductive Place
  | found (loc : Location)
  | free (loc : Location)
deriving DecidableEq

/-- What a path is followed for. -/
inductive Purpose
  /-- To use what is there. -/
  | use
  /-- To write a file. A name with a slash behind it is no name for a file. -/
  | writeFile
  /-- To create a directory. A link in its place is not followed. -/
  | makeDirectory
deriving DecidableEq

/-- The most bytes of a name. -/
def nameLimit : Nat := 255

/-- The most bytes of a path. -/
def pathLimit : Nat := 4095

/-- Whether slashes and nothing else follow a name. -/
def isSlashed (rest : List String) : Bool := !rest.isEmpty && rest.all String.isEmpty

/-- Walks on from a location. A link is followed by a given walk. -/
def walkWith (t : FileTree) (purpose : Purpose)
    (follow : Location → List String → Except OsError Place) :
    Location → List String → Except OsError Place
  | loc, [] => .ok (.found loc)
  | loc, part :: rest =>
    match t.entry? loc with
    | some .directory =>
      if part.isEmpty || part == "." then t.walkWith purpose follow loc rest
      else if part == ".." then t.walkWith purpose follow loc.dropLast rest
      else if purpose = .writeFile && isSlashed rest then .error .isDirectory
      else if nameLimit < part.utf8ByteSize then .error .nameTooLong
      else
        match t.entry? (loc ++ [part]) with
        | none => if rest.all String.isEmpty then .ok (.free (loc ++ [part])) else .error .notFound
        | some (.link target) =>
          if purpose = .makeDirectory && rest.isEmpty then .ok (.found (loc ++ [part]))
          else follow (if Path.isAbsolute target then [] else loc) (Path.parts target ++ rest)
        | some _ => t.walkWith purpose follow (loc ++ [part]) rest
    | some _ => .error .notDirectory
    | none => .error .notFound

/-- Walks on and follows at most a given number of links. -/
def walk (t : FileTree) (purpose : Purpose) : Nat → Location → List String → Except OsError Place
  | 0 => t.walkWith purpose fun _ _ => .error .tooManyLinks
  | links + 1 => t.walkWith purpose (t.walk purpose links)

def linkLimit : Nat := 40

def withoutEndSlashes (parts : List String) : List String :=
  (parts.reverse.dropWhile String.isEmpty).reverse

/-- Where a path leads from a current directory. Slashes behind the name of a new directory do
not matter. -/
def place (t : FileTree) (purpose : Purpose) (current : Location) (path : String) :
    Except OsError Place :=
  if path.isEmpty then .error .notFound
  else if path.toList.contains '\x00' then .error .zeroCharacter
  else if pathLimit < path.utf8ByteSize then .error .nameTooLong
  else
    let parts := Path.parts path
    t.walk purpose linkLimit (if Path.isAbsolute path then [] else current)
      (if purpose = .makeDirectory then withoutEndSlashes parts else parts)

/-- The location of the existing entry that a path leads to. -/
def locate (t : FileTree) (current : Location) (path : String) : Except OsError Location :=
  match t.place .use current path with
  | .ok (.found loc) => .ok loc
  | .ok (.free _) => .error .notFound
  | .error e => .error e

def status (t : FileTree) (current : Location) (path : String) : PathStatus :=
  match t.locate current path with
  | .error _ => .missing
  | .ok loc => if t.entry? loc = some .directory then .directory else .nonDirectory

def readFile (t : FileTree) (current : Location) (path : String) :
    Except OsError (List UInt8) := do
  match t.entry? (← t.locate current path) with
  | some (.file content) => return content
  | some .directory => .error .isDirectory
  | _ => .error .notFound

/-- Replaces or creates a file. -/
def writeFile (t : FileTree) (current : Location) (path : String) (content : List UInt8) :
    Except OsError FileTree := do
  match ← t.place .writeFile current path with
  | .found loc =>
    match t.entry? loc with
    | some .directory => .error .isDirectory
    | _ => t.put loc loc (.file content)
  | .free loc => t.put loc.dropLast loc (.file content)

/-- Creates a directory at a free location. -/
def makeDirectory (t : FileTree) (current : Location) (path : String) :
    Except OsError FileTree := do
  match ← t.place .makeDirectory current path with
  | .found _ => .error .alreadyExists
  | .free loc => t.put loc.dropLast loc .directory

/-- The name of a regular file directly inside a directory. -/
def fileNameIn? (directory : Location) : Location × FileEntry → Option String
  | (loc, .file _) => if loc.dropLast = directory then loc.getLast? else none
  | _ => none

def regularFiles (t : FileTree) (current : Location) (path : String) :
    Except OsError (List String) := do
  let directory ← t.locate current path
  match t.entry? directory with
  | some .directory => return t.entries.filterMap (fileNameIn? directory)
  | _ => .error .notDirectory

def sameEntry (t : FileTree) (current : Location) (a b : String) : Bool :=
  match t.locate current a, t.locate current b with
  | .ok x, .ok y => x == y
  | _, _ => false

/-- Runs a change of the tree; a refused change leaves it as it is. -/
def attempt (change : FileTree → Except OsError FileTree) : StateM FileTree (Except OsError Unit) :=
  fun t =>
    match change t with
    | .ok t => (.ok (), t)
    | .error e => (.error e, t)

/-- The file system of a tree, seen from a current directory. -/
def fileSystem (current : Location) : FileSystem (StateM FileTree) where
  status path := return (← get).status current path
  readFile path := return (← get).readFile current path
  writeFile path content := attempt fun t => t.writeFile current path content
  makeDirectory path := attempt fun t => t.makeDirectory current path
  regularFiles path := return (← get).regularFiles current path
  sameEntry a b := return (← get).sameEntry current a b

end FileTree

end VtableMerge
