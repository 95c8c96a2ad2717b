import VtableMerge.Text.Ascii
import VtableMerge.Text.Blank
import VtableMerge.Vtable

/-!
The settings of a merge in three layers: defaults, environment variables and flags. Each value
remembers the layer it came from.
-/
namespace VtableMerge

inductive SettingSource
  | default
  | environment
  | flag
deriving DecidableEq

structure Setting (α : Type) where
  value : α
  source : SettingSource
deriving DecidableEq

namespace Setting

/-- A value of a higher layer, if there is one, in place of a lower one. -/
def override {α : Type} (setting : Setting α) (source : SettingSource) : Option α → Setting α
  | none => setting
  | some value => ⟨value, source⟩

end Setting

/-- An environment variable with a value that cannot be used. -/
structure SettingError where
  variableName : String
  value : String
  reason : String
deriving DecidableEq

namespace SettingError

def message (e : SettingError) : String :=
  "invalid value '" ++ e.value ++ "' for " ++ e.variableName ++ ": " ++ e.reason

end SettingError

structure Settings where
  outDir : Setting String
  encoding : Setting VtableEncoding
  glob : Setting String
  fixGetters : Setting Bool
  pretty : Setting Bool
deriving DecidableEq

/-- The values given by flags. -/
structure FlagValues where
  outDir : Option String
  encoding : Option VtableEncoding
  glob : Option String
  fixGetters : Option Bool
  pretty : Option Bool

/-- The environment: the value of each variable that is set. -/
abbrev Environment := String → Option String

namespace Settings

def defaults : Settings :=
  { outDir := ⟨".", .default⟩
    encoding := ⟨.objects, .default⟩
    glob := ⟨"*.json", .default⟩
    fixGetters := ⟨true, .default⟩
    pretty := ⟨true, .default⟩ }

def outDirVariable : String := "PROTOMERGE_OUT_DIR"

def encodingVariable : String := "PROTOMERGE_VTABLE_FORMAT"

def globVariable : String := "PROTOMERGE_GLOB"

def fixGettersVariable : String := "PROTOMERGE_FIX_GETTERS"

/-- A switch in one of its spellings, in any case and with blanks around it. -/
def switch? (text : String) : Option Bool :=
  match Ascii.lowered (Blank.trim text) with
  | "1" | "true" | "yes" | "on" => some true
  | "0" | "false" | "no" | "off" => some false
  | _ => none

/-- The value of a variable, if it is set. -/
def fromVariable {α : Type} (env : Environment) (name : String) (read : String → Option α)
    (reason : String → String) : Except SettingError (Option α) :=
  match env name with
  | none => .ok none
  | some text =>
    match read text with
    | some a => .ok (some a)
    | none => .error ⟨name, text, reason text⟩

/-- Resolves the layers. Of several bad variables the first in the order of the settings is
reported. -/
def resolve (flags : FlagValues) (env : Environment) : Except SettingError Settings := do
  let encoding ←
    fromVariable env encodingVariable VtableEncoding.ofName? VtableEncoding.unknownMessage
  let fixGetters ←
    fromVariable env fixGettersVariable switch? fun _ => "expected 0, 1, true or false"
  return {
    outDir :=
      (defaults.outDir.override .environment (env outDirVariable)).override .flag flags.outDir
    encoding := (defaults.encoding.override .environment encoding).override .flag flags.encoding
    glob := (defaults.glob.override .environment (env globVariable)).override .flag flags.glob
    fixGetters :=
      (defaults.fixGetters.override .environment fixGetters).override .flag flags.fixGetters
    pretty := defaults.pretty.override .flag flags.pretty }

end Settings

end VtableMerge
