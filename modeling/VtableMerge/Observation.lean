import VtableMerge.Label
import VtableMerge.Signature

/-!
An observation is what one binary shows of one vtable slot of one class.
-/
namespace VtableMerge

structure Observation extends Signature where
  /-- Position of the slot in the vtable of the binary. -/
  slotIndex : Nat
  /-- The slot has no body in this binary. -/
  isPureVirtual : Bool
  /-- The observed class itself defines the slot in this binary. -/
  isImplementedHere : Bool
deriving DecidableEq

namespace Observation

/-- An observation of a method with a body, of which only the name is known. -/
def concrete (slotIndex : Nat) (name : String) : Observation :=
  { Signature.unknown with
    name, slotIndex, isPureVirtual := false, isImplementedHere := false }

def pureVirtual (slotIndex : Nat) : Observation :=
  { concrete slotIndex "" with isPureVirtual := true }

/-- Clears labels from the two name fields. -/
def normalized (o : Observation) : Observation :=
  { o with name := Label.clear o.name, mangledName := Label.clear o.mangledName }

/-- The signature an observation tells: a slot without a body tells none. -/
def signature (o : Observation) : Signature :=
  if o.isPureVirtual then Signature.unknown else o.toSignature

end Observation

end VtableMerge
