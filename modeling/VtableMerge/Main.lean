import Std.Time.DateTime.Timestamp
import VtableMerge.Calendar
import VtableMerge.CommandLine

/-!
The program. It hands the command line, the environment, the clock and the files of the process
to the library and leaves the outcome behind.
-/
namespace VtableMerge.Host

/-- The code of the system for an error, which some calls give negated. -/
def systemCode (code : UInt32) : UInt32 := min code (0 - code)

/-- The reason for a refusal. -/
def osError (e : IO.Error) : OsError :=
  match e with
  | .noFileOrDirectory .. => .notFound
  | .alreadyExists .. => .alreadyExists
  | .permissionDenied .. => .permissionDenied
  | .inappropriateType _ code _ => if systemCode code = 20 then .notDirectory else .isDirectory
  | .invalidArgument _ code _ =>
    if systemCode code = 36 then .nameTooLong
    else if systemCode code = 40 then .tooManyLinks
    else .other (toString e)
  | _ => .other (toString e)

def attempt {α : Type} (action : IO α) : IO (Except OsError α) := do
  try
    return .ok (← action)
  catch e =>
    return .error (osError e)

def status (path : String) : IO PathStatus := do
  match ← attempt (IO.FS.realPath path) with
  | .error _ => return .missing
  | .ok place => return if ← place.isDir then .directory else .nonDirectory

def regularFiles (path : String) : IO (List String) := do
  let entries ← (← IO.FS.realPath path).readDir
  let files ← entries.toList.filterM fun entry =>
    return (← entry.path.symlinkMetadata).type == .file
  return files.map fun entry => entry.fileName

def sameEntry (a b : String) : IO Bool := do
  match ← attempt (IO.FS.realPath a), ← attempt (IO.FS.realPath b) with
  | .ok a, .ok b => return a == b
  | _, _ => return false

/-- The files of the process. -/
def fileSystem : FileSystem IO where
  status := status
  readFile path := attempt (return (← IO.FS.readBinFile path).toList)
  writeFile path bytes := attempt (IO.FS.writeBinFile path ⟨bytes.toArray⟩)
  makeDirectory path := attempt (IO.FS.createDir path)
  regularFiles path := attempt (regularFiles path)
  sameEntry := sameEntry

/-- The variables that settings are read from, with their values. -/
def environment : IO Environment := do
  let names := [Settings.outDirVariable, Settings.encodingVariable, Settings.globVariable,
    Settings.fixGettersVariable]
  let values ← names.filterMapM fun name =>
    return (← IO.getEnv name).map fun value => (name, value)
  return fun name => values.lookup name

def clock : IO String := do
  let now ← Std.Time.Timestamp.now
  return (Timestamp.format? now.toSecondsSinceUnixEpoch.val 0).getD ""

end VtableMerge.Host

/-- Runs the command of the process and gives its exit code. -/
def main (args : List String) : IO UInt32 := do
  let outcome ← VtableMerge.CommandLine.run VtableMerge.Host.fileSystem
    (← VtableMerge.Host.environment) (← VtableMerge.Host.clock) args
  IO.print outcome.output
  IO.eprint outcome.complaint
  return outcome.exitCode.toUInt32
