import VtableMerge.Document.Class
import VtableMerge.Document.Diagnostic
import VtableMerge.Document.Prototype
import VtableMerge.Failure

/-!
The JSON forms of the answers of the two commands and of failures.
-/
namespace VtableMerge

open Json (Field Fields Reader Value)

namespace ReportCounts

def toJson (c : ReportCounts) : Value :=
  .object
    [("classes", .nat c.classes), ("classes_resolved", .nat c.classesResolved),
      ("classes_unobserved", .nat c.classesUnobserved), ("classes_failed", .nat c.classesFailed),
      ("classes_dropped", .nat c.classesDropped), ("prototypes", .nat c.prototypes),
      ("placeholders_synthesized", .nat c.placeholdersSynthesized),
      ("getters_fixed", .nat c.gettersFixed), ("diagnostics", .nat c.diagnostics)]

def fields : Fields [Nat, Nat, Nat, Nat, Nat, Nat, Nat, Nat, Nat] :=
  .cons (.required "classes" Reader.size) <|
  .cons (.required "classes_resolved" Reader.size) <|
  .cons (.required "classes_unobserved" Reader.size) <|
  .cons (.required "classes_failed" Reader.size) <|
  .cons (.required "classes_dropped" Reader.size) <|
  .cons (.required "prototypes" Reader.size) <|
  .cons (.required "placeholders_synthesized" Reader.size) <|
  .cons (.required "getters_fixed" Reader.size) <|
  .cons (.required "diagnostics" Reader.size) .nil

def reader : Reader ReportCounts :=
  Reader.record "ReportCounts" fields
    fun (classes, resolved, unobserved, failed, dropped, prototypes, placeholders, getters,
        diagnostics, _) =>
      ⟨classes, resolved, unobserved, failed, dropped, prototypes, placeholders, getters,
        diagnostics⟩

end ReportCounts

namespace DocumentDigest

def toJson (d : DocumentDigest) : Value :=
  .object
    [("path", .string d.path), ("sha256", .string d.sha256), ("classes", .nat d.classes),
      ("accepted", .nat d.counts.accepted), ("dropped", .nat d.counts.dropped),
      ("replaced", .nat d.counts.replaced)]

end DocumentDigest

namespace WrittenOutputs

def toJson (o : WrittenOutputs) : Value :=
  .object ([("classes", .string o.classes), ("prototypes", .string o.prototypes)]
    ++ Value.present "report" .string o.report)

def fields : Fields [String, String, Option String] :=
  .cons (.required "classes" Reader.string) <|
  .cons (.required "prototypes" Reader.string) <|
  .cons (.omittable "report" Reader.string) .nil

def reader : Reader WrittenOutputs :=
  Reader.record "WrittenOutputs" fields fun (classes, prototypes, report, _) =>
    ⟨classes, prototypes, report⟩

end WrittenOutputs

/-- The fields that every successful answer starts with. -/
def okFields : List (String × Value) :=
  [("status", .string "ok"), ("schema_version", .string schemaVersion)]

namespace MergeReport

def toJson (r : MergeReport) : Value :=
  .object (okFields
    ++ [("generated_at", .string r.generatedAt), ("counts", r.counts.toJson),
      ("documents", .list DocumentDigest.toJson r.documents),
      ("diagnostics", .list Diagnostic.toJson r.diagnostics)]
    ++ Value.present "outputs" WrittenOutputs.toJson r.outputs)

end MergeReport

namespace EffectiveMethod

def toJson (m : EffectiveMethod) : Value :=
  .object
    [("slot", .nat m.slotIndex), ("prototype", m.prototype.toEntryJson),
      ("mangled_name", .optional .string m.mangledName)]

end EffectiveMethod

namespace EffectiveVtable

/-- The answer about the effective vtable of a class. -/
def toJson (v : EffectiveVtable) : Value :=
  .object (okFields
    ++ [("class_name", .string v.className), ("source_class", .string v.sourceClass),
      ("methods", .list EffectiveMethod.toJson v.methods)])

end EffectiveVtable

namespace ErrorInfo

def toJson (e : ErrorInfo) : Value :=
  .object ([("code", .nat e.code), ("message", .string e.message)]
    ++ Value.present "details" Value.canonical e.details)

def fields : Fields [Nat, String, Option Value] :=
  .cons (.required "code" Reader.byte) <|
  .cons (.required "message" Reader.string) <|
  .cons (.omittable "details" Reader.free) .nil

def reader : Reader ErrorInfo :=
  Reader.record "ErrorInfo" fields fun (code, message, details, _) => ⟨code, message, details⟩

end ErrorInfo

namespace ErrorResponse

def toJson (r : ErrorResponse) : Value :=
  .object
    [("status", .string r.status), ("schema_version", .string r.schemaVersion),
      ("error", r.error.toJson)]

def fields : Fields [String, String, ErrorInfo] :=
  .cons (.required "status" Reader.string) <|
  .cons (.required "schema_version" Reader.string) <|
  .cons (.required "error" ErrorInfo.reader) .nil

def reader : Reader ErrorResponse :=
  Reader.record "ErrorResponse" fields fun (status, schemaVersion, error, _) =>
    ⟨status, schemaVersion, error⟩

end ErrorResponse

end VtableMerge
