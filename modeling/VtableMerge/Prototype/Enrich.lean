import VtableMerge.Diagnostic
import VtableMerge.Prototype

/-!
Enrichment takes into a prototype what an observation knows and the prototype does not. What is
known already stays; a disagreement on names or on the number of parameters is a conflict.
-/
namespace VtableMerge

/-- Which parts of a prototype an observation changed. -/
structure Adopted where
  returnType : Bool
  name : Bool
  parameters : Bool
deriving DecidableEq

namespace Adopted

def nothing : Adopted := ⟨false, false, false⟩

def any (a : Adopted) : Bool := a.returnType || a.name || a.parameters

end Adopted

/-- The known return type after one was seen, and whether it is new. -/
def adoptReturnType (known seen : String) : String × Bool :=
  if known != unknownType || seen == unknownType then (known, false) else (seen, true)

/-- A symbol is taken while there is none. -/
def adoptMangledName (known seen : String) : String × Bool :=
  if known.isEmpty && !seen.isEmpty then (seen, true) else (known, false)

/-- A nameless signature takes the symbol and the name that were seen; a named one keeps both. -/
def adoptNames (known seen : Signature) : Signature × Bool :=
  if known.isNamed then (known, false)
  else
    let (mangledName, changed) := adoptMangledName known.mangledName seen.mangledName
    if seen.isNamed then ({ known with name := seen.name, mangledName }, true)
    else ({ known with mangledName }, changed)

/-- Fills unknown types position by position; the names of the parameters stay. -/
def fillTypes : Params → Params → Params × Bool
  | p :: ps, q :: qs =>
    let (rest, changed) := fillTypes ps qs
    if p.isUnknown && !q.isUnknown then ({ p with type := q.type } :: rest, true)
    else (p :: rest, changed)
  | ps, _ => (ps, false)

/-- A placeholder list gives way to any other list, an empty list to a longer one, and lists of
one length are filled. -/
def adoptParameters (known seen : Params) : Params × Bool :=
  if known.isUnknown then (seen, known != seen)
  else if seen.isUnknown then (known, false)
  else if known.length != seen.length then
    if known.isEmpty then (seen, true) else (known, false)
  else fillTypes known seen

/-- Whether two names disagree. Destructors are named after their class, so they never do. -/
def namesConflict (known seen : String) : Bool :=
  !known.isEmpty && known != seen && !isDestructorName known && !isDestructorName seen
    && !isUnnamed seen

/-- Whether two lists that both tell something differ in length. -/
def countsConflict (known seen : Params) : Bool :=
  !known.isUnknown && !seen.isUnknown && known.length != seen.length

/-- What enriching a prototype gives. -/
structure Enrichment where
  prototype : Prototype
  adopted : Adopted
  conflicts : Diagnostics

namespace Prototype

def nameMismatch (p : Prototype) (className : String) (slotIndex : Nat) (seen : String) :
    Diagnostic :=
  (Diagnostic.ofClass className .nameMismatch
    (p.declaringClass ++ " declares '" ++ p.name ++ "' but " ++ className ++ " observes '"
      ++ seen ++ "'")).atSlot slotIndex

def parameterCountMismatch (p : Prototype) (className : String) (slotIndex : Nat)
    (seen : Params) : Diagnostic :=
  (Diagnostic.ofClass className .parameterCountMismatch
    ("'" ++ p.name ++ "' has " ++ toString p.parameters.length ++ " parameters but "
      ++ className ++ " observes " ++ toString seen.length)).atSlot slotIndex

/-- Folds the observation of a slot by a class into the prototype of the slot. -/
def enrich (p : Prototype) (o : Observation) (className : String) (slotIndex : Nat) :
    Enrichment :=
  if o.isPureVirtual then ⟨p, Adopted.nothing, []⟩
  else
    let (returnType, typed) := adoptReturnType p.returnType o.returnType
    let (signature, named) := adoptNames p.toSignature o.toSignature
    let (parameters, filled) := adoptParameters p.parameters o.parameters
    let nameConflicts :=
      if namesConflict p.name o.name then [p.nameMismatch className slotIndex o.name] else []
    let countConflicts :=
      if countsConflict p.parameters o.parameters then
        [{ p with name := signature.name }.parameterCountMismatch className slotIndex
          o.parameters]
      else []
    { prototype :=
        { p with
          name := signature.name
          mangledName := signature.mangledName
          returnType
          parameters }
      adopted := ⟨typed, named, filled⟩
      conflicts := nameConflicts ++ countConflicts }

section Parts
variable (p : Prototype) (o : Observation) (className : String) (slotIndex : Nat)

/-- The conflict of names, if there is one. -/
def nameConflict? : Option Diagnostic :=
  if namesConflict p.name o.name then some (p.nameMismatch className slotIndex o.name) else none

/-- The conflict of parameter counts, if there is one. It is told with the name that the prototype
has by then. -/
def countConflict? : Option Diagnostic :=
  if countsConflict p.parameters o.parameters then
    some ({ p with name := (adoptNames p.toSignature o.toSignature).1.name }.parameterCountMismatch
      className slotIndex o.parameters)
  else none

theorem enrich_of_pureVirtual {o : Observation} (hpure : o.isPureVirtual = true) :
    p.enrich o className slotIndex = ⟨p, Adopted.nothing, []⟩ := by rw [enrich, if_pos hpure]

/-- Each rule works on its own part. -/
theorem enrich_of_body {o : Observation} (hbody : o.isPureVirtual = false) :
    p.enrich o className slotIndex =
      { prototype :=
          { p with
            name := (adoptNames p.toSignature o.toSignature).1.name
            mangledName := (adoptNames p.toSignature o.toSignature).1.mangledName
            returnType := (adoptReturnType p.returnType o.returnType).1
            parameters := (adoptParameters p.parameters o.parameters).1 }
        adopted :=
          ⟨(adoptReturnType p.returnType o.returnType).2,
            (adoptNames p.toSignature o.toSignature).2,
            (adoptParameters p.parameters o.parameters).2⟩
        conflicts := (p.nameConflict? o className slotIndex).toList ++
          (p.countConflict? o className slotIndex).toList } := by
  have hlist {α : Type} (b : Bool) (a : α) :
      (if b then some a else none).toList = if b then [a] else [] := by cases b <;> rfl
  rw [enrich, hbody, nameConflict?, countConflict?, hlist, hlist]
  rfl

end Parts

end Prototype

end VtableMerge
