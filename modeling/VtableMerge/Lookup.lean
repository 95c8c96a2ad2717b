import VtableMerge.Export

/-!
The effective vtable of a class is its own or, where the merge left it without one, that of the
nearest ancestor that has one. It is looked up in exported documents, which may be reordered,
filtered or edited: classes and prototypes may be repeated or missing, and parent links may run
in circles.
-/
namespace VtableMerge

inductive LookupError
  | unknownClass (name : String)
  | noVtable (name : String)
  | danglingPrototype (className : String) (id : ProtoId)
deriving DecidableEq

namespace LookupError

def message : LookupError → String
  | unknownClass name => "class '" ++ name ++ "' is not in the class document"
  | noVtable name => "no vtable for '" ++ name ++ "' or any of its ancestors"
  | danglingPrototype className id =>
    "class '" ++ className ++ "' references missing prototype " ++ id.label

end LookupError

/-- A method of an effective vtable, with the symbol of its implementation in the class that
owns the vtable. -/
structure EffectiveMethod where
  slotIndex : Nat
  prototype : Prototype
  mangledName : Option String
deriving DecidableEq

structure EffectiveVtable where
  className : String
  /-- The class that owns the vtable: the class itself or an ancestor. -/
  sourceClass : String
  methods : List EffectiveMethod
deriving DecidableEq

structure ExportedTables where
  classes : List ClassEntry
  prototypes : List Prototype

namespace ExportedTables

/-- The first class of a name. -/
def class? (t : ExportedTables) (name : String) : Option ClassEntry :=
  t.classes.find? fun c => c.name == name

/-- The prototype at the position of a number if it has that number, otherwise the first one
that does. -/
def prototype? (t : ExportedTables) (id : ProtoId) : Option Prototype :=
  match t.prototypes[id.index]?.filter fun p => p.id == id with
  | some p => some p
  | none => t.prototypes.find? fun p => p.id == id

/-- The parent of a class, unless the walk came through it before. -/
def nextClass? (t : ExportedTables) (seen : List String) (c : ClassEntry) : Option ClassEntry :=
  match c.parent with
  | none => none
  | some parent => if seen.contains parent then none else t.class? parent

/-- The nearest class with a vtable from a class upward. Every step sees one more of the class
names. -/
def ownerFrom? (t : ExportedTables) : Nat → List String → ClassEntry → Option ClassEntry
  | 0, _, _ => none
  | steps + 1, seen, c =>
    if c.vtable.isSome then some c
    else (t.nextClass? (c.name :: seen) c).bind (t.ownerFrom? steps (c.name :: seen))

def vtableOwner (t : ExportedTables) (name : String) : Except LookupError ClassEntry :=
  match t.class? name with
  | none => .error (.unknownClass name)
  | some c =>
    match t.ownerFrom? t.classes.length [] c with
    | none => .error (.noVtable name)
    | some owner => .ok owner

/-- The methods of slots from a position on. -/
def methodsFrom (t : ExportedTables) (owner : String) (slotIndex : Nat) :
    List VtableSlot → Except LookupError (List EffectiveMethod)
  | [] => .ok []
  | slot :: rest =>
    match t.prototype? slot.id with
    | none => .error (.danglingPrototype owner slot.id)
    | some prototype => do
      let methods ← t.methodsFrom owner (slotIndex + 1) rest
      return ⟨slotIndex, prototype, slot.mangledName⟩ :: methods

def effectiveVtable (t : ExportedTables) (name : String) : Except LookupError EffectiveVtable := do
  let owner ← t.vtableOwner name
  let methods ← t.methodsFrom owner.name 0 (owner.slots.getD [])
  return ⟨name, owner.name, methods⟩

end ExportedTables

end VtableMerge
