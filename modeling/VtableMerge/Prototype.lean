import VtableMerge.Observation

/-!
A prototype is the signature that all classes which inherit a slot share. Prototypes live in a
table and are named by their position in it, so every class that shares a slot sees the same
prototype.
-/
namespace VtableMerge

/-- The number of a prototype. -/
structure ProtoId where
  number : UInt32
deriving DecidableEq

namespace ProtoId

def index (id : ProtoId) : Nat := id.number.toNat

/-- The number of the prototype at a position below 2^32. -/
def ofIndex (i : Nat) : ProtoId := ⟨UInt32.ofNat i⟩

def label (id : ProtoId) : String := "proto_" ++ toString id.index

end ProtoId

structure Prototype extends Signature where
  id : ProtoId
  /-- Position of the slot at the declaring class. -/
  slotIndex : Nat
  declaringClass : String
deriving DecidableEq

/-- Prototypes by position. -/
structure PrototypeTable where
  prototypes : List Prototype
deriving DecidableEq

namespace PrototypeTable

def empty : PrototypeTable := ⟨[]⟩

def size (table : PrototypeTable) : Nat := table.prototypes.length

def isEmpty (table : PrototypeTable) : Bool := table.prototypes.isEmpty

def get? (table : PrototypeTable) (id : ProtoId) : Option Prototype :=
  table.prototypes[id.index]?

/-- Appends a prototype for a slot and gives its number. -/
def create (table : PrototypeTable) (className : String) (slotIndex : Nat)
    (signature : Signature) : PrototypeTable × ProtoId :=
  let id := ProtoId.ofIndex table.size
  (⟨table.prototypes ++ [{ signature with id, slotIndex, declaringClass := className }]⟩, id)

def set (table : PrototypeTable) (id : ProtoId) (prototype : Prototype) : PrototypeTable :=
  ⟨table.prototypes.set id.index prototype⟩

/-- The prototype that a class declares at a slot. -/
def findDeclared? (table : PrototypeTable) (className : String) (slotIndex : Nat) :
    Option Prototype :=
  table.prototypes.find? fun p => p.declaringClass == className && p.slotIndex == slotIndex

/-- Replaces every prototype for which the rule gives another one, and counts them. -/
def revise (rule : Prototype → Option Prototype) (table : PrototypeTable) :
    PrototypeTable × Nat :=
  (⟨table.prototypes.map fun p => (rule p).getD p⟩,
    table.prototypes.countP fun p => (rule p).isSome)

end PrototypeTable

end VtableMerge
