import VtableMerge.FileSystem.Path

/-!
What the program asks of a file system. Every request is about a path relative to the current
directory, and failures are values.
-/
namespace VtableMerge

/-- Why the system refuses a request. -/
inductive OsError
  | notFound
  | permissionDenied
  | alreadyExists
  | notDirectory
  | isDirectory
  | nameTooLong
  | tooManyLinks
  /-- The path has a character that no path can have. -/
  | zeroCharacter
  | other (text : String)
deriving DecidableEq

namespace OsError

def message : OsError → String
  | notFound => "No such file or directory (os error 2)"
  | permissionDenied => "Permission denied (os error 13)"
  | alreadyExists => "File exists (os error 17)"
  | notDirectory => "Not a directory (os error 20)"
  | isDirectory => "Is a directory (os error 21)"
  | nameTooLong => "File name too long (os error 36)"
  | tooManyLinks => "Too many levels of symbolic links (os error 40)"
  | zeroCharacter => "file name contained an unexpected NUL byte"
  | other text => text

end OsError

/-- What a path leads to, links followed. -/
inductive PathStatus
  | missing
  | directory
  | nonDirectory
deriving DecidableEq

structure FileSystem (m : Type → Type) where
  status : String → m PathStatus
  readFile : String → m (Except OsError (List UInt8))
  /-- Replaces the content of a file or creates it. -/
  writeFile : String → List UInt8 → m (Except OsError Unit)
  makeDirectory : String → m (Except OsError Unit)
  /-- The names of the regular files directly inside a directory. Links are not followed. -/
  regularFiles : String → m (Except OsError (List String))
  /-- Whether two paths lead to one existing file or directory. -/
  sameEntry : String → String → m Bool

namespace FileSystem

/-- A refusal to create a directory does not matter where there is one. -/
def acceptExisting {m : Type → Type} [Monad m] (fs : FileSystem m) (path : String)
    (result : Except OsError Unit) : m (Except OsError Unit) := do
  match result with
  | .ok () => return .ok ()
  | .error e =>
    match ← fs.status path with
    | .directory => return .ok ()
    | _ => return .error e

/-- Creates the first directory of a chain, and the ones after it when it needs them. -/
def makeChain {m : Type → Type} [Monad m] (fs : FileSystem m) :
    List String → m (Except OsError Unit)
  | [] => return .ok ()
  | path :: above => do
    match ← fs.makeDirectory path with
    | .error .notFound =>
      match ← fs.makeChain above with
      | .error e => return .error e
      | .ok () => fs.acceptExisting path (← fs.makeDirectory path)
    | result => fs.acceptExisting path result

/-- Creates a directory with the directories above it. The empty path is there already. -/
def makeDirectories {m : Type → Type} [Monad m] (fs : FileSystem m) (path : String) :
    m (Except OsError Unit) :=
  fs.makeChain (Path.chain path)

end FileSystem

end VtableMerge
