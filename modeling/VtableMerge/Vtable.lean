import VtableMerge.Prototype
import VtableMerge.Text.Ascii

/-!
Slots of resolved vtables, and the two forms in which they are written.
-/
namespace VtableMerge

structure VtableSlot where
  id : ProtoId
  /-- The class supplies its own implementation. -/
  isOverridden : Bool
  isPureVirtual : Bool
  /-- The symbol of the own implementation. It is absent where the class has none, and empty
  where the class has one of unknown symbol. -/
  mangledName : Option String
deriving DecidableEq

namespace VtableSlot

def ofObservation (id : ProtoId) (o : Observation) : VtableSlot :=
  { id
    isOverridden := o.isImplementedHere
    isPureVirtual := o.isPureVirtual
    mangledName :=
      if o.isImplementedHere && !o.isPureVirtual then some o.mangledName else none }

end VtableSlot

/-- How slots are written in the class document: as objects or as tuples. -/
inductive VtableEncoding
  | objects
  | compact
deriving DecidableEq

namespace VtableEncoding

def all : List VtableEncoding := [objects, compact]

def name : VtableEncoding → String
  | objects => "objects"
  | compact => "compact"

/-- Reads a format name or one of its synonyms, in any case. -/
def ofName? (text : String) : Option VtableEncoding :=
  match Ascii.lowered text with
  | "objects" | "object" => some objects
  | "compact" | "tuple" => some compact
  | _ => none

def unknownMessage (text : String) : String :=
  "unknown vtable format '" ++ Ascii.lowered text ++ "' (expected 'objects' or 'compact')"

end VtableEncoding

end VtableMerge
