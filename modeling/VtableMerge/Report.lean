import VtableMerge.Diagnostic
import VtableMerge.Lookup
import VtableMerge.Observation.Store

/-!
What the two commands answer: the report of a merge and the effective vtable of a class.
-/
namespace VtableMerge

/-- The version of the answers' shape. -/
def schemaVersion : String := "1"

structure ReportCounts where
  classes : Nat
  classesResolved : Nat
  classesUnobserved : Nat
  classesFailed : Nat
  classesDropped : Nat
  prototypes : Nat
  placeholdersSynthesized : Nat
  gettersFixed : Nat
  diagnostics : Nat
deriving DecidableEq

/-- What was taken from one observation document. -/
structure DocumentDigest where
  path : String
  sha256 : String
  /-- Classes in the document. -/
  classes : Nat
  counts : IngestCounts
deriving DecidableEq

/-- The paths of written documents. -/
structure WrittenOutputs where
  classes : String
  prototypes : String
  report : Option String
deriving DecidableEq

structure MergeReport where
  generatedAt : String
  counts : ReportCounts
  documents : List DocumentDigest
  diagnostics : Diagnostics
  outputs : Option WrittenOutputs
deriving DecidableEq

end VtableMerge
