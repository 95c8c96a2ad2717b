import VtableMerge.Document.Signature

/-!
The two JSON forms of a prototype: the record of the table and the entry of the exported
prototype document. They differ in the names and in the order of the fields.
-/
namespace VtableMerge.Prototype

open Json (Field Fields Reader Value)

def toJson (p : Prototype) : Value :=
  .object
    [("proto_index", p.id.toJson), ("name", .string p.name),
      ("mangled_name", .string p.mangledName), ("return_type", .string p.returnType),
      ("parameters", p.parameters.toJson), ("original_slot_index", .nat p.slotIndex),
      ("declaring_class", .string p.declaringClass)]

def fields : Fields [ProtoId, String, String, String, Params, Nat, String] :=
  .cons (.required "proto_index" ProtoId.reader) <|
  .cons (.required "name" Reader.string) <|
  .cons (.required "mangled_name" Reader.string) <|
  .cons (.required "return_type" Reader.string) <|
  .cons (.required "parameters" Params.reader) <|
  .cons (.required "original_slot_index" Reader.size) <|
  .cons (.required "declaring_class" Reader.string) .nil

def reader : Reader Prototype :=
  Reader.record "PrototypeRecord" fields
    fun (id, name, mangledName, returnType, parameters, slotIndex, declaringClass, _) =>
      { id, name, mangledName, returnType, parameters, slotIndex, declaringClass }

def toEntryJson (p : Prototype) : Value :=
  .object
    [("name", .string p.name), ("mangledName", .string p.mangledName),
      ("returnType", .string p.returnType), ("parameters", p.parameters.toJson),
      ("vtableIndex", .nat p.slotIndex), ("declaringClass", .string p.declaringClass),
      ("protoIndex", p.id.toJson)]

def entryFields : Fields [String, String, String, Params, Nat, String, ProtoId] :=
  .cons (.required "name" Reader.string) <|
  .cons (.required "mangledName" Reader.string) <|
  .cons (.required "returnType" Reader.string) <|
  .cons (.required "parameters" Params.reader) <|
  .cons (.required "vtableIndex" Reader.size) <|
  .cons (.required "declaringClass" Reader.string) <|
  .cons (.required "protoIndex" ProtoId.reader) .nil

def entryReader : Reader Prototype :=
  Reader.record "PrototypeEntry" entryFields
    fun (name, mangledName, returnType, parameters, slotIndex, declaringClass, id, _) =>
      { id, name, mangledName, returnType, parameters, slotIndex, declaringClass }

/-- The exported prototype document. -/
def entriesToJson (ps : List Prototype) : Value := .list toEntryJson ps

end VtableMerge.Prototype
