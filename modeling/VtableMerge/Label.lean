/-!
Names that a disassembler makes up for routines it cannot name: any number of jump marks, then
a routine mark, then an address in hexadecimal digits. Such a label carries no information.
-/
namespace VtableMerge.Label

def isHexDigit (c : Char) : Bool :=
  ('0' ≤ c && c ≤ '9') || ('A' ≤ c && c ≤ 'F') || ('a' ≤ c && c ≤ 'f')

def isAddress (cs : List Char) : Bool := !cs.isEmpty && cs.all isHexDigit

/-- Removes the jump marks in front. -/
def dropJumps : List Char → List Char
  | 'j' :: '_' :: cs => dropJumps cs
  | cs => cs

def isRoutine : List Char → Bool
  | 's' :: 'u' :: 'b' :: '_' :: cs => isAddress cs
  | 'n' :: 'u' :: 'l' :: 'l' :: 's' :: 'u' :: 'b' :: '_' :: cs => isAddress cs
  | _ => false

/-- Whether a whole name is a label. No routine mark starts with a jump mark, so removing as
many jump marks as there are loses no reading. -/
def accepts (name : String) : Bool := isRoutine (dropJumps name.toList)

/-- The name without a label: a label becomes the empty name. -/
def clear (name : String) : String := if accepts name then "" else name

end VtableMerge.Label

namespace VtableMerge

/-- Whether a text fails to name a method. -/
def isUnnamed (name : String) : Bool := name.isEmpty || Label.accepts name

/-- Whether a name is a destructor's. -/
def isDestructorName (name : String) : Bool := name.toList.head? == some '~'

end VtableMerge
