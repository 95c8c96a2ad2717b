/-!
Signatures of virtual methods as the extraction side reports them. A type that was not
recovered is written with three question marks. A parameter list with exactly one such type
says that nothing is known about the parameters; the empty list is different, it belongs to a
method without arguments.
-/
namespace VtableMerge

/-- The mark of a type that was not recovered. -/
def unknownType : String := "???"

/-- A method parameter: a type and, when recovered, a name. -/
structure Param where
  type : String
  name : Option String
deriving DecidableEq

namespace Param

def ofType (type : String) : Param := ⟨type, none⟩

def named (type name : String) : Param := ⟨type, some name⟩

def unknown : Param := ofType unknownType

def isUnknown (p : Param) : Bool := p.type == unknownType

end Param

abbrev Params := List Param

namespace Params

/-- The list that says nothing. -/
def unknown : Params := [Param.unknown]

/-- Whether a list is a placeholder: one parameter of unknown type, named or not. -/
def isUnknown : Params → Bool
  | [p] => p.isUnknown
  | _ => false

end Params

/-- What is known about a method. An empty name or mangled name is an unknown one. -/
structure Signature where
  name : String
  mangledName : String
  returnType : String
  parameters : Params
deriving DecidableEq

namespace Signature

/-- The signature of which nothing is known. -/
def unknown : Signature := ⟨"", "", unknownType, Params.unknown⟩

def isNamed (s : Signature) : Bool := !s.name.isEmpty

def hasUnknownReturn (s : Signature) : Bool := s.returnType == unknownType

def hasUnknownParameters (s : Signature) : Bool := s.parameters.isUnknown

end Signature

end VtableMerge
