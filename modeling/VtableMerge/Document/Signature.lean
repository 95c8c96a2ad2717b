import VtableMerge.Json.Fields
import VtableMerge.Prototype

/-!
The JSON forms of parameters and prototype numbers.
-/
namespace VtableMerge

open Json (Field Fields Reader Value)

namespace ProtoId

def toJson (id : ProtoId) : Value := .nat id.index

def reader : Reader ProtoId := Reader.word32.map ProtoId.mk

end ProtoId

namespace Param

def toJson (p : Param) : Value :=
  .object [("type", .string p.type), ("name", .optional .string p.name)]

def fields : Fields [String, Option String] :=
  .cons (.required "type" Reader.string) <|
  .cons (.defaulted "name" Reader.string.optional none) .nil

def reader : Reader Param :=
  Reader.record "MethodParam" fields fun (type, name, _) => ⟨type, name⟩

end Param

namespace Params

def toJson (ps : Params) : Value := .list Param.toJson ps

def reader : Reader Params := Param.reader.list

end Params

end VtableMerge
