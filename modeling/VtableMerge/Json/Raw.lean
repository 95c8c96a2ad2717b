import VtableMerge.Json.ReadError
import VtableMerge.Json.Value

/-!
JSON texts as trees that keep everything a reader may care about: the order of fields, repeated
fields, and where the text breaks off or stops being JSON. Whoever reads the tree in order meets
faults in the order of the text.
-/
namespace VtableMerge.Json

inductive Raw
  /-- The text stops being JSON where this value should start. -/
  | broken
  | null
  | bool (b : Bool)
  | number (n : Numeral)
  /-- A string. Its content is absent when it is no text: it has a hole or a lone surrogate. -/
  | string (content : Option String)
  /-- Items, and whether a closing bracket follows the last of them. -/
  | array (items : List Raw) (closed : Bool)
  /-- Keys with their values, and whether a closing brace follows the last of them. -/
  | object (entries : List (Raw × Raw)) (closed : Bool)

namespace Raw

def isString : Raw → Bool
  | .string _ => true
  | _ => false

mutual

/-- Whether the text of the tree is JSON all through. Holes in strings, numbers out of range and
deep nesting do not matter for that. -/
def isWhole : Raw → Bool
  | .broken => false
  | .array items closed => areWhole items && closed
  | .object entries closed => entriesAreWhole entries && closed
  | _ => true

def areWhole : List Raw → Bool
  | [] => true
  | raw :: rest => raw.isWhole && areWhole rest

def entriesAreWhole : List (Raw × Raw) → Bool
  | [] => true
  | (key, raw) :: rest => key.isString && raw.isWhole && entriesAreWhole rest

end

/-- The error of a value in a place where something else was expected. -/
def mismatch (raw : Raw) (expected : String) : ReadError :=
  match raw with
  | .broken => .malformed
  | .null => .invalidType .null expected
  | .bool b => .invalidType (.bool b) expected
  | .number n =>
    match n.value? with
    | none => .malformed
    | some value => .invalidType (.number value) expected
  | .string none => .malformed
  | .string (some text) => .invalidType (.string text) expected
  | .array _ _ => .invalidType .sequence expected
  | .object _ _ => .invalidType .map expected

/-- At most this many arrays and objects may be open at once in a value that is kept. -/
def depthLimit : Nat := 127

mutual

/-- The value of a tree below a number of open arrays and objects. -/
def value (depth : Nat) : Raw → Except ReadError Value
  | .broken => .error .malformed
  | .null => .ok .null
  | .bool b => .ok (.bool b)
  | .number n =>
    match n.value? with
    | none => .error .malformed
    | some value => .ok (.number value)
  | .string none => .error .malformed
  | .string (some text) => .ok (.string text)
  | .array items closed =>
    if depth < depthLimit then do
      let values ← itemValues (depth + 1) items
      if closed then return .array values else .error .malformed
    else .error .malformed
  | .object entries closed =>
    if depth < depthLimit then do
      let fields ← entryValues (depth + 1) entries
      if closed then return .object fields else .error .malformed
    else .error .malformed

def itemValues (depth : Nat) : List Raw → Except ReadError (List Value)
  | [] => .ok []
  | raw :: rest => do
    let v ← value depth raw
    let vs ← itemValues depth rest
    return v :: vs

def entryValues (depth : Nat) : List (Raw × Raw) → Except ReadError (List (String × Value))
  | [] => .ok []
  | (key, raw) :: rest => do
    match key with
    | .string (some key) => do
      let v ← value depth raw
      let fields ← entryValues depth rest
      return (key, v) :: fields
    | _ => .error .malformed

end

end Raw

/-- A tree and whether nothing but blanks follows it. -/
structure Document where
  root : Raw
  ended : Bool

end VtableMerge.Json
