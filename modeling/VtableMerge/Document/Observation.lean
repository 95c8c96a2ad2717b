import VtableMerge.Document.Signature
import VtableMerge.Hierarchy
import VtableMerge.Observation.Store

/-!
The JSON forms of the inputs of a merge: the hierarchy document, which is a list of classes, and
the observation document, which gives a list of observations for each class name.
-/
namespace VtableMerge

open Json (Field Fields Reader Value)

namespace ClassNode

/-- A resolved vtable is no part of the hierarchy document. -/
def toJson (c : ClassNode) : Value :=
  .object
    [("name", .string c.name), ("parent", .optional .string c.parent),
      ("is_abstract", .bool c.isAbstract)]

def fields : Fields [String, Option String, Bool] :=
  .cons (.required "name" Reader.string) <|
  .cons (.defaulted "parent" Reader.string.optional none) <|
  .cons ((Field.required "is_abstract" Reader.bool).alsoNamed "isAbstract") .nil

def reader : Reader ClassNode :=
  Reader.record "ClassNode" fields fun (name, parent, isAbstract, _) =>
    ⟨name, parent, isAbstract, none⟩

end ClassNode

namespace Observation

def toJson (o : Observation) : Value :=
  .object
    [("vtable_index", .nat o.slotIndex), ("name", .string o.name),
      ("mangled_name", .string o.mangledName), ("return_type", .string o.returnType),
      ("parameters", o.parameters.toJson), ("is_pure_virtual", .bool o.isPureVirtual),
      ("is_implemented_by_current_class", .bool o.isImplementedHere)]

def fields : Fields [Nat, String, String, String, Params, Bool, Bool] :=
  .cons ((Field.required "vtable_index" Reader.size).alsoNamed "slot_index") <|
  .cons (.required "name" Reader.string) <|
  .cons (.defaulted "mangled_name" Reader.string "") <|
  .cons (.required "return_type" Reader.string) <|
  .cons (.required "parameters" Params.reader) <|
  .cons (.required "is_pure_virtual" Reader.bool) <|
  .cons ((Field.required "is_implemented_by_current_class" Reader.bool).alsoNamed
    "implemented_here")
    .nil

def reader : Reader Observation :=
  Reader.record "Observation" fields
    fun (slotIndex, name, mangledName, returnType, parameters, isPureVirtual,
        isImplementedHere, _) =>
      { name, mangledName, returnType, parameters, slotIndex, isPureVirtual, isImplementedHere }

end Observation

namespace ObservationDocument

def toJson (d : ObservationDocument) : Value :=
  .object (d.map fun (name, slots) => (name, .list Observation.toJson slots))

def reader : Reader ObservationDocument := Reader.keyed Observation.reader.list

end ObservationDocument

end VtableMerge
