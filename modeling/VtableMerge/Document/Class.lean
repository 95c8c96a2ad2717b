import VtableMerge.Document.Signature
import VtableMerge.Export

/-!
The JSON forms of slots and exported classes. In the class document a slot is an object or a
tuple of four; an object may also be written as an array that leaves out the symbol.
-/
namespace VtableMerge

open Json (Field Fields Reader Value)

namespace VtableEncoding

def toJson (e : VtableEncoding) : Value := .string e.name

def reader : Reader VtableEncoding := Reader.choice (all.map fun e => (e.name, e))

end VtableEncoding

namespace VtableSlot

def toJson (s : VtableSlot) : Value :=
  .object
    [("proto_index", s.id.toJson), ("is_overridden", .bool s.isOverridden),
      ("is_pure_virtual", .bool s.isPureVirtual),
      ("mangled_name", .optional .string s.mangledName)]

def ofRow : Json.Row [ProtoId, Bool, Bool, Option String] → VtableSlot :=
  fun (id, isOverridden, isPureVirtual, mangledName, _) =>
    ⟨id, isOverridden, isPureVirtual, mangledName⟩

def fields : Fields [ProtoId, Bool, Bool, Option String] :=
  .cons (.required "proto_index" ProtoId.reader) <|
  .cons (.required "is_overridden" Reader.bool) <|
  .cons (.required "is_pure_virtual" Reader.bool) <|
  .cons (.omittable "mangled_name" Reader.string) .nil

def reader : Reader VtableSlot := Reader.record "VtableSlot" fields ofRow

def toEntryJson (s : VtableSlot) : Value :=
  .object
    [("protoIndex", s.id.toJson), ("isOverridden", .bool s.isOverridden),
      ("isPureVirtual", .bool s.isPureVirtual),
      ("mangledName", .optional .string s.mangledName)]

def entryFields : Fields [ProtoId, Bool, Bool, Option String] :=
  .cons (.required "protoIndex" ProtoId.reader) <|
  .cons (.required "isOverridden" Reader.bool) <|
  .cons (.required "isPureVirtual" Reader.bool) <|
  .cons (.defaulted "mangledName" Reader.string.optional none) .nil

def entryReader : Reader VtableSlot := Reader.record "VtableEntry" entryFields ofRow

def toTupleJson (s : VtableSlot) : Value :=
  .array
    [s.id.toJson, .bool s.isOverridden, .bool s.isPureVirtual, .optional .string s.mangledName]

def tupleFields : Fields [ProtoId, Bool, Bool, Option String] :=
  .cons (.required "protoIndex" ProtoId.reader) <|
  .cons (.required "isOverridden" Reader.bool) <|
  .cons (.required "isPureVirtual" Reader.bool) <|
  .cons (.required "mangledName" Reader.string.optional) .nil

def tupleReader : Reader VtableSlot :=
  Reader.row "a tuple of four" tupleFields ofRow

end VtableSlot

namespace EncodedSlot

def toJson (e : EncodedSlot) : Value :=
  match e.encoding with
  | .objects => e.slot.toEntryJson
  | .compact => e.slot.toTupleJson

def reader : Reader EncodedSlot :=
  Reader.either "VtableEntryRepr"
    (VtableSlot.tupleReader.map (EncodedSlot.mk .compact))
    (VtableSlot.entryReader.map (EncodedSlot.mk .objects))

end EncodedSlot

namespace ClassEntry

def toJson (c : ClassEntry) : Value :=
  .object
    [("name", .string c.name), ("parent", .optional .string c.parent),
      ("isAbstract", .bool c.isAbstract),
      ("vtable", .optional (.list EncodedSlot.toJson) c.vtable)]

def fields : Fields [String, Option String, Bool, Option (List EncodedSlot)] :=
  .cons (.required "name" Reader.string) <|
  .cons (.omittable "parent" Reader.string) <|
  .cons ((Field.required "isAbstract" Reader.bool).alsoNamed "is_abstract") <|
  .cons (.defaulted "vtable" EncodedSlot.reader.list.optional none) .nil

def reader : Reader ClassEntry :=
  Reader.record "ClassEntry" fields fun (name, parent, isAbstract, vtable, _) =>
    ⟨name, parent, isAbstract, vtable⟩

/-- The exported class document. -/
def documentToJson (cs : List ClassEntry) : Value := .list toJson cs

end ClassEntry

end VtableMerge
