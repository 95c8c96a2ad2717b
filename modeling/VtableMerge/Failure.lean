import VtableMerge.FileSystem
import VtableMerge.Json.ReadError
import VtableMerge.Json.Value
import VtableMerge.Report
import VtableMerge.Settings

/-!
Failures of a command. Errors of loading, looking up and configuring become failures, and each
failure has an exit code, a message and sometimes details.
-/
namespace VtableMerge

open Json (ReadError Value)

/-- Why an input cannot be loaded. -/
inductive LoadError
  | notFound (path : String)
  | notADirectory (path : String)
  | unreadable (path : String) (reason : OsError)
  | malformed (path : String) (reason : ReadError)
  /-- A class occurs twice in the hierarchy document. -/
  | duplicateClass (path : String) (name : String)
  | invalidGlob (pattern : String) (reason : String)
deriving DecidableEq

/-- The message about a class that occurs twice in a hierarchy. -/
def duplicateClassMessage (name : String) : String := "duplicate class '" ++ name ++ "'"

namespace LoadError

def message : LoadError → String
  | notFound path => "input not found: " ++ path
  | notADirectory path => "not a directory: " ++ path
  | unreadable path reason => "failed to read " ++ path ++ ": " ++ reason.message
  | malformed path reason => "malformed document " ++ path ++ ": " ++ reason.message
  | duplicateClass path name =>
    "invalid hierarchy " ++ path ++ ": " ++ duplicateClassMessage name
  | invalidGlob pattern reason => "invalid glob '" ++ pattern ++ "': " ++ reason

/-- The path of the input, where the error is about one. -/
def path? : LoadError → Option String
  | notFound path | notADirectory path | unreadable path _ | malformed path _
  | duplicateClass path _ => some path
  | invalidGlob _ _ => none

end LoadError

inductive Failure
  | invalidArguments (reason : String) (details : Option Value)
  | inputNotFound (path : String)
  | malformedInput (path : String) (reason : String)
  | classNotFound (name : String)
  | noVtable (name : String)
  | writeFailed (path : String) (reason : String)
  /-- A result could not be handed over. -/
  | unexpected (reason : String)

namespace Failure

def message : Failure → String
  | invalidArguments reason _ => "invalid arguments: " ++ reason
  | inputNotFound path => "input not found: " ++ path
  | malformedInput path reason => "malformed input " ++ path ++ ": " ++ reason
  | classNotFound name => "class not found: " ++ name
  | noVtable name => "no vtable for " ++ name ++ " or any of its ancestors"
  | writeFailed path reason => "failed to write " ++ path ++ ": " ++ reason
  | unexpected reason => "internal error: " ++ reason

/-- The exit code of the process. -/
def code : Failure → Nat
  | invalidArguments _ _ => 2
  | inputNotFound _ | classNotFound _ | noVtable _ => 3
  | malformedInput _ _ => 4
  | writeFailed _ _ => 5
  | unexpected _ => 10

def details : Failure → Option Value
  | invalidArguments _ details => details
  | inputNotFound path | malformedInput path _ | writeFailed path _ =>
    some (.object [("path", .string path)])
  | classNotFound name | noVtable name => some (.object [("class", .string name)])
  | unexpected _ => none

def ofLoadError (e : LoadError) : Failure :=
  match e with
  | .notFound path => inputNotFound path
  | .notADirectory _ | .invalidGlob _ _ => invalidArguments e.message none
  | .unreadable path reason => malformedInput path reason.message
  | .malformed path reason => malformedInput path reason.message
  | .duplicateClass path name => malformedInput path (duplicateClassMessage name)

def ofLookupError (e : LookupError) : Failure :=
  match e with
  | .unknownClass name => classNotFound name
  | .noVtable name => noVtable name
  | .danglingPrototype _ _ => malformedInput "" e.message

def ofSettingError (e : SettingError) : Failure :=
  invalidArguments e.message
    (some (.object [("value", .string e.value), ("var", .string e.variableName)]))

end Failure

/-- The error part of a response. -/
structure ErrorInfo where
  code : Nat
  message : String
  details : Option Value

structure ErrorResponse where
  status : String
  schemaVersion : String
  error : ErrorInfo

namespace Failure

def response (f : Failure) : ErrorResponse :=
  ⟨"error", schemaVersion, ⟨f.code, f.message, f.details⟩⟩

end Failure

end VtableMerge
