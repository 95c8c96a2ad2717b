import VtableMerge.Json.Raw.Parser

/-!
Readers take a tree apart in the order of its text, so the first fault in that order is the one
reported. A reader knows how many arrays and objects are open around its tree.
-/
namespace VtableMerge.Json

/-- From the number of open arrays and objects and a tree to a value. -/
abbrev Reader (α : Type) := Nat → Raw → Except ReadError α

namespace Reader

def map {α β : Type} (read : Reader α) (f : α → β) : Reader β :=
  fun depth raw => (read depth raw).map f

def bool : Reader Bool
  | _, .bool b => .ok b
  | _, raw => .error (raw.mismatch "a boolean")

def string : Reader String
  | _, .string (some text) => .ok text
  | _, raw => .error (raw.mismatch "a string")

/-- Reads an integer below a limit. A type is named in the messages. -/
def natBelow (limit : Nat) (type : String) : Reader Nat
  | _, .number n =>
    match n.value? with
    | some (.int value) =>
      if 0 ≤ value && value < limit then .ok value.toNat
      else .error (.invalidValue (.number (.int value)) type)
    | _ => .error ((Raw.number n).mismatch type)
  | _, raw => .error (raw.mismatch type)

def byte : Reader Nat := natBelow UInt8.size "u8"

def word32 : Reader UInt32 := (natBelow UInt32.size "u32").map UInt32.ofNat

def size : Reader Nat := natBelow UInt64.size "usize"

/-- Null reads as an absent value. -/
def optional {α : Type} (read : Reader α) : Reader (Option α)
  | _, .null => .ok none
  | depth, raw => (read depth raw).map some

/-- Reads trees in order. -/
def each {α : Type} (read : Reader α) (depth : Nat) : List Raw → Except ReadError (List α)
  | [] => .ok []
  | raw :: rest => do
    let a ← read depth raw
    let more ← each read depth rest
    return a :: more

def list {α : Type} (read : Reader α) : Reader (List α)
  | depth, .array items closed => do
    let values ← each read (depth + 1) items
    if closed then return values else .error .malformed
  | _, raw => .error (raw.mismatch "a sequence")

def entries {α : Type} (read : Reader α) (depth : Nat) :
    List (Raw × Raw) → Except ReadError (List (String × α))
  | [] => .ok []
  | (.string (some key), raw) :: rest => do
    let a ← read depth raw
    let more ← entries read depth rest
    return (key, a) :: more
  | _ :: _ => .error .malformed

/-- Reads an object with any keys. The last of equal keys counts, and the keys come in ascending
order. -/
def keyed {α : Type} (read : Reader α) : Reader (List (String × α))
  | depth, .object items closed => do
    let values ← entries read (depth + 1) items
    if closed then return Keyed.ofEntries values else .error .malformed
  | _, raw => .error (raw.mismatch "a map")

/-- The alternative of a name. -/
def alternative {α : Type} (named : List (String × α)) (name : String) : Except ReadError α :=
  match named.lookup name with
  | some a => .ok a
  | none => .error (.unknownVariant name (named.map Prod.fst))

/-- Reads one of several names, written as a string or as the only key of an object with a null
value. -/
def choice {α : Type} (named : List (String × α)) : Reader α
  | _, .string (some name) => alternative named name
  | _, .object ((.string (some name), raw) :: rest) closed => do
    let a ← alternative named name
    match raw with
    | .null => if rest.isEmpty && closed then return a else .error .malformed
    | _ => .error (raw.mismatch "unit")
  | _, _ => .error .malformed

/-- Reads any value and puts the fields of its objects in order. -/
def free : Reader Value := fun depth raw => (raw.value depth).map Value.canonical

/-- Reads a value in the first of two forms that fits. The value has to be one that can be kept,
and the reason why a form does not fit is not told. -/
def either {α : Type} (type : String) (first second : Reader α) : Reader α :=
  fun depth raw =>
    match raw.value depth with
    | .error e => .error e
    | .ok _ =>
      match first depth raw, second depth raw with
      | .ok a, _ => .ok a
      | .error _, .ok a => .ok a
      | .error _, .error _ => .error (.noVariant type)

/-- Reads a whole document. -/
def ofBytes {α : Type} (read : Reader α) (bytes : List UInt8) : Except ReadError α := do
  let document := Raw.ofBytes bytes
  let a ← read 0 document.root
  if document.ended then return a else .error .malformed

end Reader

end VtableMerge.Json
