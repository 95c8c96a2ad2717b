import VtableMerge.Json.Number
import VtableMerge.Text.Quoted

/-!
What can be wrong with a JSON text that is read as a given type.
-/
namespace VtableMerge.Json

/-- What a text holds in a place where something else was expected. -/
inductive Found
  | null
  | bool (b : Bool)
  | number (n : Number)
  | string (text : String)
  | sequence
  | map
deriving DecidableEq

inductive ReadError
  /-- The text is no JSON text. -/
  | malformed
  | invalidType (found : Found) (expected : String)
  | invalidValue (found : Found) (expected : String)
  | invalidLength (length : Nat) (expected : String)
  | unknownVariant (variant : String) (known : List String)
  | missingField (field : String)
  | duplicateField (field : String)
  /-- The value has none of the forms of a type. -/
  | noVariant (type : String)
deriving DecidableEq

namespace Found

def message : Found → String
  | null => "null"
  | bool b => "boolean `" ++ (if b then "true" else "false") ++ "`"
  | number (.int n) => "integer `" ++ toString n ++ "`"
  | number (.float bits) => "floating point `" ++ floatText bits ++ "`"
  | string text => "string " ++ Quoted.quote text
  | sequence => "sequence"
  | map => "map"

end Found

namespace ReadError

def alternatives : List String → String
  | [a] => "`" ++ a ++ "`"
  | [a, b] => "`" ++ a ++ "` or `" ++ b ++ "`"
  | names => "one of " ++ ", ".intercalate (names.map fun a => "`" ++ a ++ "`")

/-- The text of an error. A text that is no JSON is only called so, without a reason. -/
def message : ReadError → String
  | malformed => "<syntax>"
  | invalidType found expected => "invalid type: " ++ found.message ++ ", expected " ++ expected
  | invalidValue found expected => "invalid value: " ++ found.message ++ ", expected " ++ expected
  | invalidLength length expected =>
    "invalid length " ++ toString length ++ ", expected " ++ expected
  | unknownVariant variant known =>
    "unknown variant `" ++ variant ++ "`, expected " ++ alternatives known
  | missingField field => "missing field `" ++ field ++ "`"
  | duplicateField field => "duplicate field `" ++ field ++ "`"
  | noVariant type => "data did not match any variant of untagged enum " ++ type

end ReadError

end VtableMerge.Json
