import VtableMerge.Load
import VtableMerge.Merge
import VtableMerge.Prototype.Naming

/-!
The two commands. Merging loads all inputs, merges, runs the passes over the prototypes and
writes the documents; it refuses to write over its own inputs. Showing reads the documents back
and looks up one class.
-/
namespace VtableMerge.Run

open Json (Layout Value)

/-- Everything a merge yields before anything is written. -/
structure Artifacts where
  classes : List ClassEntry
  prototypes : List Prototype
  report : MergeReport

/-- Merges loaded observations and runs the passes. -/
def artifacts (h : Hierarchy) (loaded : LoadedObservations) (encoding : VtableEncoding)
    (fixGetters : Bool) (generatedAt : String) : Artifacts :=
  let merged := Merge.run h loaded.store
  let (fixed, gettersFixed) :=
    if fixGetters then merged.prototypes.fixVoidGetters else (merged.prototypes, 0)
  let (named, placeholdersSynthesized) := fixed.synthesizePlaceholders
  { classes := merged.classes.map (ClassEntry.ofNode encoding)
    prototypes := named.prototypes
    report :=
      { generatedAt
        counts :=
          { classes := merged.stats.classes
            classesResolved := merged.stats.resolved
            classesUnobserved := merged.stats.unobserved
            classesFailed := merged.stats.failed
            classesDropped := loaded.droppedClasses
            prototypes := named.size
            placeholdersSynthesized
            gettersFixed
            diagnostics := merged.diagnostics.length }
        documents := loaded.documents
        diagnostics := merged.diagnostics
        outputs := none } }

def classesFile : String := "classes.json"

def prototypesFile : String := "prototypes.json"

def reportFile : String := "report.json"

def layout (pretty : Bool) : Layout := if pretty then .pretty else .compact

variable {m : Type → Type} [Monad m]

def writeDocument (fs : FileSystem m) (path : String) (value : Value) (pretty : Bool) :
    ExceptT Failure m Unit := do
  match ← fs.writeFile path (value.documentBytes (layout pretty)) with
  | .ok () => return ()
  | .error e => throw (.writeFailed path e.message)

def pathDetails (path : String) : Option Value := some (.object [("path", .string path)])

/-- The hierarchy document must survive the run. -/
def refuseOverwrite (fs : FileSystem m) (input output : String) : ExceptT Failure m Unit := do
  if ← fs.sameEntry input output then
    throw (.invalidArguments ("output " ++ output ++ " would overwrite the hierarchy input")
      (pathDetails input))

/-- Documents must not be written where the next run reads observations. -/
def refuseOutputIntoObservations (fs : FileSystem m) (observations outDir : String) :
    ExceptT Failure m Unit := do
  if ← fs.sameEntry observations outDir then
    throw (.invalidArguments
      ("output directory " ++ outDir ++ " is the observation directory")
      (pathDetails observations))

def makeOutDir (fs : FileSystem m) (outDir : String) : ExceptT Failure m Unit := do
  match ← fs.makeDirectories outDir with
  | .ok () => return ()
  | .error e => throw (.writeFailed outDir e.message)

/-- Writes the class and the prototype document, and the report with the paths of what was
written. -/
def writeArtifacts (fs : FileSystem m) (a : Artifacts) (outDir : String)
    (pretty writeReport : Bool) : ExceptT Failure m MergeReport := do
  let classesOut := Path.join outDir classesFile
  let prototypesOut := Path.join outDir prototypesFile
  let reportOut := Path.join outDir reportFile
  writeDocument fs classesOut (ClassEntry.documentToJson a.classes) pretty
  writeDocument fs prototypesOut (Prototype.entriesToJson a.prototypes) pretty
  let report :=
    { a.report with
      outputs := some ⟨classesOut, prototypesOut, if writeReport then some reportOut else none⟩ }
  if writeReport then writeDocument fs reportOut report.toJson pretty
  return report

/-- Loads, merges and writes. -/
def merge (fs : FileSystem m) (settings : Settings) (classesPath observationsDir : String)
    (writeReport : Bool) (generatedAt : String) : ExceptT Failure m MergeReport := do
  let outDir := settings.outDir.value
  refuseOutputIntoObservations fs observationsDir outDir
  let h ← ExceptT.adapt Failure.ofLoadError (Load.hierarchyFile fs classesPath)
  let loaded ← ExceptT.adapt Failure.ofLoadError
    (Load.observationDirectory fs observationsDir settings.glob.value h)
  let a := artifacts h loaded settings.encoding.value settings.fixGetters.value generatedAt
  makeOutDir fs outDir
  refuseOverwrite fs classesPath (Path.join outDir classesFile)
  refuseOverwrite fs classesPath (Path.join outDir prototypesFile)
  writeArtifacts fs a outDir settings.pretty.value writeReport

/-- The effective vtable of a class in exported documents. -/
def showClass (fs : FileSystem m) (classesPath prototypesPath className : String) :
    ExceptT Failure m EffectiveVtable := do
  let classes ← ExceptT.adapt Failure.ofLoadError
    (Load.documentFile fs ClassEntry.reader.list classesPath)
  let prototypes ← ExceptT.adapt Failure.ofLoadError
    (Load.documentFile fs Prototype.entryReader.list prototypesPath)
  match (ExportedTables.mk classes prototypes).effectiveVtable className with
  | .ok v => return v
  | .error e => throw (Failure.ofLookupError e)

end VtableMerge.Run
