import VtableMerge.Digest.Sha256
import VtableMerge.Document.Observation
import VtableMerge.Document.Report
import VtableMerge.Glob.Parser

/-!
Loading inputs. A hierarchy is one document; observations are all documents in a directory whose
names match a pattern, read in the order of their names, so that the last name wins. Everything
is loaded before the merge starts, and the first document that cannot be read ends the loading.
-/
namespace VtableMerge

open Json (Reader)

/-- The observations of a directory and what each document gave, in the order of reading. -/
structure LoadedObservations where
  store : ObservationStore
  documents : List DocumentDigest

namespace LoadedObservations

def empty : LoadedObservations := ⟨ObservationStore.empty, []⟩

/-- Classes that were dropped because the hierarchy lacks them. -/
def droppedClasses (l : LoadedObservations) : Nat :=
  l.documents.foldl (fun n d => n + d.counts.dropped) 0

/-- Takes in one more document. -/
def add (l : LoadedObservations) (known : String → Bool) (path : String) (bytes : List UInt8)
    (document : ObservationDocument) : LoadedObservations :=
  let (store, counts) := ObservationStore.ingest known path document l.store
  ⟨store, l.documents ++ [⟨path, Sha256.hex bytes, document.length, counts⟩]⟩

end LoadedObservations

namespace Load

/-- Reads bytes as a document of a type. The path is for messages. -/
def document {α : Type} (reader : Reader α) (path : String) (bytes : List UInt8) :
    Except LoadError α :=
  match reader.ofBytes bytes with
  | .ok a => .ok a
  | .error e => .error (.malformed path e)

def hierarchy (path : String) (bytes : List UInt8) : Except LoadError Hierarchy := do
  let nodes ← document ClassNode.reader.list path bytes
  match Hierarchy.ofNodes nodes with
  | .ok h => return h
  | .error name => .error (.duplicateClass path name)

def observations (path : String) (bytes : List UInt8) : Except LoadError ObservationDocument :=
  document ObservationDocument.reader path bytes

def pattern (text : String) : Except LoadError Glob.Pattern :=
  match Glob.Pattern.ofText text with
  | .ok p => .ok p
  | .error e => .error (.invalidGlob text (e.message text))

variable {m : Type → Type} [Monad m]

def readBytes (fs : FileSystem m) (path : String) : ExceptT LoadError m (List UInt8) := do
  match ← fs.readFile path with
  | .ok bytes => return bytes
  | .error .notFound => throw (.notFound path)
  | .error e => throw (.unreadable path e)

def documentFile {α : Type} (fs : FileSystem m) (reader : Reader α) (path : String) :
    ExceptT LoadError m α := do
  let bytes ← readBytes fs path
  document reader path bytes

def hierarchyFile (fs : FileSystem m) (path : String) : ExceptT LoadError m Hierarchy := do
  let bytes ← readBytes fs path
  hierarchy path bytes

/-- The matching names in the order of their bytes. -/
def matchingNames (p : Glob.Pattern) (names : List String) : List String :=
  (names.filter fun name => p.isMatch (Utf8.encodeString name)).mergeSort fun a b => !(b < a)

/-- The paths of the matching files directly inside a directory, in the order of their names. -/
def observationFiles (fs : FileSystem m) (directory : String) (p : Glob.Pattern) :
    ExceptT LoadError m (List String) := do
  match ← fs.status directory with
  | .missing => throw (.notFound directory)
  | .nonDirectory => throw (.notADirectory directory)
  | .directory =>
    match ← fs.regularFiles directory with
    | .error e => throw (.unreadable directory e)
    | .ok names => return (matchingNames p names).map (Path.join directory)

/-- Takes in the documents at some paths one after the other. -/
def observationPaths (fs : FileSystem m) (known : String → Bool) :
    LoadedObservations → List String → ExceptT LoadError m LoadedObservations
  | loaded, [] => return loaded
  | loaded, path :: rest => do
    let bytes ← readBytes fs path
    let document ← observations path bytes
    observationPaths fs known (loaded.add known path bytes document) rest

/-- Loads all matching documents of a directory, and of them the classes of the hierarchy. -/
def observationDirectory (fs : FileSystem m) (directory patternText : String) (h : Hierarchy) :
    ExceptT LoadError m LoadedObservations := do
  let p ← pattern patternText
  let paths ← observationFiles fs directory p
  observationPaths fs h.contains LoadedObservations.empty paths

end Load

end VtableMerge
