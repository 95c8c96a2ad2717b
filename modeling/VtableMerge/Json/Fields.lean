import VtableMerge.Json.Reader

/-!
Records with named fields. A record is written as an object, and it is read from an object in
any order or from an array with the fields in their declared order. Fields that are not declared
are skipped in objects.
-/
namespace VtableMerge.Json

/-- A field of a record: its name, other names it is read under, the reader of its value, and the
values it takes when an object leaves it out or an array ends before it. -/
structure Field (α : Type) where
  name : String
  aliases : List String
  read : Reader α
  ifMissing : Option α
  ifShort : Option α

namespace Field

def required {α : Type} (name : String) (read : Reader α) : Field α := ⟨name, [], read, none, none⟩

/-- A field that takes a value when it is absent. -/
def defaulted {α : Type} (name : String) (read : Reader α) (value : α) : Field α :=
  ⟨name, [], read, some value, some value⟩

/-- A field that objects may leave out, but not arrays. -/
def omittable {α : Type} (name : String) (read : Reader α) : Field (Option α) :=
  ⟨name, [], read.optional, some none, none⟩

def alsoNamed {α : Type} (f : Field α) (name : String) : Field α :=
  { f with aliases := name :: f.aliases }

def answersTo {α : Type} (f : Field α) (key : String) : Bool :=
  key == f.name || f.aliases.contains key

end Field

/-- The fields of a record in their declared order. -/
inductive Fields : List Type → Type 1
  | nil : Fields []
  | cons {α : Type} {αs : List Type} (f : Field α) (fs : Fields αs) : Fields (α :: αs)

/-- One value for each field. -/
def Row : List Type → Type
  | [] => Unit
  | α :: αs => α × Row αs

/-- The values of the fields met so far. -/
def PartialRow : List Type → Type
  | [] => Unit
  | α :: αs => Option α × PartialRow αs

namespace Fields

def size {αs : List Type} : Fields αs → Nat
  | .nil => 0
  | .cons _ fs => fs.size + 1

def noneMet {αs : List Type} : Fields αs → PartialRow αs
  | .nil => ()
  | .cons _ fs => (none, fs.noneMet)

/-- Reads the value of a key into the row, unless no field answers to the key. -/
def put? {αs : List Type} (fs : Fields αs) (depth : Nat) (key : String) (raw : Raw)
    (row : PartialRow αs) : Option (Except ReadError (PartialRow αs)) :=
  match fs, row with
  | .nil, _ => none
  | .cons f fs, (met, row) =>
    if f.answersTo key then
      some <| match met with
        | some _ => .error (.duplicateField f.name)
        | none => (f.read depth raw).map fun a => (some a, row)
    else (fs.put? depth key raw row).map fun rest => rest.map fun row => (met, row)

/-- Reads the entries of an object in order. -/
def collect {αs : List Type} (fs : Fields αs) (depth : Nat) :
    List (Raw × Raw) → PartialRow αs → Except ReadError (PartialRow αs)
  | [], row => .ok row
  | (.string (some key), raw) :: rest, row =>
    match fs.put? depth key raw row with
    | some (.ok row) => fs.collect depth rest row
    | some (.error e) => .error e
    | none => if raw.isWhole then fs.collect depth rest row else .error .malformed
  | _ :: _, _ => .error .malformed

/-- Completes the row of an object. -/
def complete {αs : List Type} (fs : Fields αs) (row : PartialRow αs) :
    Except ReadError (Row αs) :=
  match fs, row with
  | .nil, _ => .ok ()
  | .cons f fs, (met, row) =>
    match met <|> f.ifMissing with
    | none => .error (.missingField f.name)
    | some a => (fs.complete row).map fun row => (a, row)

/-- Reads the items of an array as the fields from a position on, and gives the items after
them. -/
def take {αs : List Type} (fs : Fields αs) (depth : Nat) (expected : String) (closed : Bool)
    (position : Nat) (items : List Raw) : Except ReadError (Row αs × List Raw) :=
  match fs, items with
  | .nil, items => .ok ((), items)
  | .cons f fs, item :: items => do
    let a ← f.read depth item
    let (row, rest) ← fs.take depth expected closed (position + 1) items
    return ((a, row), rest)
  | .cons f fs, [] =>
    if closed then
      match f.ifShort with
      | none => .error (.invalidLength position expected)
      | some a => do
        let (row, rest) ← fs.take depth expected closed (position + 1) []
        return ((a, row), rest)
    else .error .malformed

end Fields

namespace Reader

/-- Reads a record from an array that has nothing but its fields. -/
def row {α : Type} {αs : List Type} (expected : String) (fs : Fields αs) (build : Row αs → α) :
    Reader α
  | depth, .array items closed => do
    let (row, rest) ← fs.take (depth + 1) expected closed 0 items
    if rest.isEmpty && closed then return build row else .error .malformed
  | _, raw => .error (raw.mismatch expected)

def record {α : Type} {αs : List Type} (type : String) (fs : Fields αs) (build : Row αs → α) :
    Reader α
  | depth, .object entries closed => do
    let met ← fs.collect (depth + 1) entries fs.noneMet
    if closed then (fs.complete met).map build else .error .malformed
  | depth, .array items closed =>
    row ("struct " ++ type ++ " with " ++ toString fs.size ++ " elements") fs build depth
      (.array items closed)
  | _, raw => .error (raw.mismatch ("struct " ++ type))

end Reader

end VtableMerge.Json
