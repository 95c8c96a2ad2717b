import VtableMerge.Json.Number
import VtableMerge.Text.Keyed
import VtableMerge.Text.Utf8

/-!
JSON values and their texts. The fields of an object stand in the order in which they are
written. A text is either a single line without blanks or laid out with two blanks a level.
-/
namespace VtableMerge.Json

inductive Value
  | null
  | bool (b : Bool)
  | number (n : Number)
  | string (text : String)
  | array (items : List Value)
  | object (fields : List (String × Value))

namespace Value

def int (n : Int) : Value := .number (.int n)

def nat (n : Nat) : Value := .number (.int n)

/-- An absent value is written as null. -/
def optional {α : Type} (write : α → Value) : Option α → Value
  | none => .null
  | some a => write a

def list {α : Type} (write : α → Value) (items : List α) : Value := .array (items.map write)

/-- A field that is left out when there is no value. -/
def present {α : Type} (name : String) (write : α → Value) : Option α → List (String × Value)
  | none => []
  | some a => [(name, write a)]

mutual

/-- The value with the fields of every object in ascending order. Of equal keys the last one
counts. -/
def canonical : Value → Value
  | .array items => .array (canonicalItems items)
  | .object fields => .object (Keyed.ofEntries (canonicalFields fields))
  | v => v

def canonicalItems : List Value → List Value
  | [] => []
  | v :: vs => canonical v :: canonicalItems vs

def canonicalFields : List (String × Value) → List (String × Value)
  | [] => []
  | (key, v) :: rest => (key, canonical v) :: canonicalFields rest

end

end Value

/-- How a text is laid out. -/
inductive Layout
  | compact
  | pretty
deriving DecidableEq

namespace Layout

/-- What separates two items at a depth, after the comma. -/
def newline (layout : Layout) (depth : Nat) : List Char :=
  match layout with
  | compact => []
  | pretty => '\n' :: List.replicate (2 * depth) ' '

def colon : Layout → List Char
  | compact => [':']
  | pretty => [':', ' ']

end Layout

def hexDigit (n : Nat) : Char := if n < 10 then Char.ofNat (48 + n) else Char.ofNat (87 + n)

/-- A character inside quotes: quotes, backslashes and controls are escaped. -/
def escape (c : Char) : List Char :=
  if c = '"' then ['\\', '"']
  else if c = '\\' then ['\\', '\\']
  else if c = '\x08' then ['\\', 'b']
  else if c = '\x0c' then ['\\', 'f']
  else if c = '\n' then ['\\', 'n']
  else if c = '\r' then ['\\', 'r']
  else if c = '\t' then ['\\', 't']
  else if c.toNat < 32 then ['\\', 'u', '0', '0', hexDigit (c.toNat / 16), hexDigit (c.toNat % 16)]
  else [c]

def quote (text : String) : List Char := '"' :: text.toList.flatMap escape ++ ['"']

mutual

def render (layout : Layout) (depth : Nat) : Value → List Char
  | .null => "null".toList
  | .bool true => "true".toList
  | .bool false => "false".toList
  | .number n => n.text.toList
  | .string text => quote text
  | .array [] => ['[', ']']
  | .array (v :: vs) =>
    '[' :: layout.newline (depth + 1) ++ render layout (depth + 1) v
      ++ renderItems layout (depth + 1) vs ++ layout.newline depth ++ [']']
  | .object [] => ['{', '}']
  | .object ((key, v) :: rest) =>
    '{' :: layout.newline (depth + 1) ++ quote key ++ layout.colon
      ++ render layout (depth + 1) v ++ renderFields layout (depth + 1) rest
      ++ layout.newline depth ++ ['}']

/-- The items after the first one. -/
def renderItems (layout : Layout) (depth : Nat) : List Value → List Char
  | [] => []
  | v :: vs =>
    ',' :: layout.newline depth ++ render layout depth v ++ renderItems layout depth vs

/-- The fields after the first one. -/
def renderFields (layout : Layout) (depth : Nat) : List (String × Value) → List Char
  | [] => []
  | (key, v) :: rest =>
    ',' :: layout.newline depth ++ quote key ++ layout.colon ++ render layout depth v
      ++ renderFields layout depth rest

end

namespace Value

def text (layout : Layout) (v : Value) : String := String.ofList (render layout 0 v)

/-- A document is a text and a line end. -/
def document (layout : Layout) (v : Value) : List Char := render layout 0 v ++ ['\n']

def documentBytes (layout : Layout) (v : Value) : List UInt8 := Utf8.encode (v.document layout)

end Value

end VtableMerge.Json
