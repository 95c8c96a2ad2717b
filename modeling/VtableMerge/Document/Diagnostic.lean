import VtableMerge.Diagnostic
import VtableMerge.Json.Fields

/-!
The JSON form of diagnostics. A diagnostic about a whole class has no slot.
-/
namespace VtableMerge

open Json (Field Fields Reader Value)

namespace DiagnosticCategory

def toJson (c : DiagnosticCategory) : Value := .string c.code

def reader : Reader DiagnosticCategory := Reader.choice (all.map fun c => (c.code, c))

end DiagnosticCategory

namespace DiagnosticKind

def toJson (k : DiagnosticKind) : Value := .string k.code

def reader : Reader DiagnosticKind := Reader.choice (all.map fun k => (k.code, k))

end DiagnosticKind

namespace Diagnostic

def toJson (d : Diagnostic) : Value :=
  .object (("class_name", .string d.className) :: Value.present "slot_index" .nat d.slotIndex
    ++ [("kind", d.kind.toJson), ("category", d.category.toJson), ("detail", .string d.detail)])

def fields :
    Fields [String, Option Nat, DiagnosticKind, DiagnosticCategory, String] :=
  .cons (.required "class_name" Reader.string) <|
  .cons (.omittable "slot_index" Reader.size) <|
  .cons (.required "kind" DiagnosticKind.reader) <|
  .cons (.required "category" DiagnosticCategory.reader) <|
  .cons (.required "detail" Reader.string) .nil

def reader : Reader Diagnostic :=
  Reader.record "Diagnostic" fields fun (className, slotIndex, kind, category, detail, _) =>
    ⟨className, slotIndex, kind, category, detail⟩

end Diagnostic

end VtableMerge
