import VtableMerge.Hierarchy

/-!
Exported classes. A resolved class carries its slots, each in one of the two forms; both forms
say the same.
-/
namespace VtableMerge

/-- A slot and the form it is written in. -/
structure EncodedSlot where
  encoding : VtableEncoding
  slot : VtableSlot
deriving DecidableEq

structure ClassEntry where
  name : String
  parent : Option String
  isAbstract : Bool
  /-- The vtable of a resolved class. -/
  vtable : Option (List EncodedSlot)
deriving DecidableEq

namespace ClassEntry

def slots (c : ClassEntry) : Option (List VtableSlot) :=
  c.vtable.map fun entries => entries.map EncodedSlot.slot

def ofNode (encoding : VtableEncoding) (c : ClassNode) : ClassEntry :=
  { name := c.name
    parent := c.parent
    isAbstract := c.isAbstract
    vtable := c.slots.map fun slots => slots.map fun slot => ⟨encoding, slot⟩ }

end ClassEntry

end VtableMerge
