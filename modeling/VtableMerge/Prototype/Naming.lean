import VtableMerge.Prototype

/-!
Two passes over a finished table. A getter that returns nothing was recovered wrongly, so its
return type becomes unknown. A prototype that no class could name gets a name made from its
declaring class and slot.
-/
namespace VtableMerge

/-- The made-up name of the method at a slot. -/
def placeholderName (slotIndex : Nat) : String := "vmethod" ++ toString slotIndex

namespace Prototype

/-- Names a nameless prototype and drops whatever else it holds. -/
def withPlaceholderName? (p : Prototype) : Option Prototype :=
  if p.isNamed then none
  else
    let name := placeholderName p.slotIndex
    some { p with
      name
      mangledName := p.declaringClass ++ "::" ++ name
      returnType := unknownType
      parameters := Params.unknown }

def isVoidGetter (p : Prototype) : Bool :=
  "get".toList.isPrefixOf p.name.toList && p.returnType == "void"

def withoutVoidReturn? (p : Prototype) : Option Prototype :=
  if p.isVoidGetter then some { p with returnType := unknownType } else none

end Prototype

namespace PrototypeTable

def synthesizePlaceholders (table : PrototypeTable) : PrototypeTable × Nat :=
  table.revise Prototype.withPlaceholderName?

def fixVoidGetters (table : PrototypeTable) : PrototypeTable × Nat :=
  table.revise Prototype.withoutVoidReturn?

end PrototypeTable

end VtableMerge
