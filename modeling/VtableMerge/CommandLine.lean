import VtableMerge.Run

/-!
The command line: options in front of a subcommand, the subcommand, and its own options. Words
are read in order and the first one that does not fit ends the reading; what is missing is only
noticed at the end. Asking for the version or for help ends the reading as well.
-/
namespace VtableMerge.CommandLine

inductive UsageError
  | unknownWord (word : String)
  | repeatedOption (name : String)
  | missingValue (name : String)
  | invalidValue (name value : String)
  | unexpectedValue (name : String)
  | missing (name : String)
deriving DecidableEq

namespace UsageError

def message : UsageError → String
  | unknownWord word => "unexpected argument '" ++ word ++ "'"
  | repeatedOption name => "the argument '--" ++ name ++ "' cannot be used multiple times"
  | missingValue name => "a value is required for '--" ++ name ++ "'"
  | invalidValue name value => "invalid value '" ++ value ++ "' for '--" ++ name ++ "'"
  | unexpectedValue name => "unexpected value for '--" ++ name ++ "'"
  | missing name => "missing " ++ name

end UsageError

/-- What an option takes: no value, or a value that is not refused. -/
inductive OptionKind
  | switch
  | valued (accepts : String → Bool)

structure OptionSpec where
  name : String
  kind : OptionKind

def anyText : OptionKind := .valued fun _ => true

/-- A path is not empty. -/
def pathText : OptionKind := .valued fun value => !value.isEmpty

def logLevels : List String := ["trace", "debug", "info", "warn", "error"]

/-- The options that stand anywhere. They only concern the log. -/
def globalOptions : List OptionSpec :=
  [⟨"log-level", .valued logLevels.contains⟩, ⟨"log-json", .switch⟩]

def mergeOptions : List OptionSpec :=
  [⟨"classes", pathText⟩, ⟨"observations", pathText⟩, ⟨"out-dir", pathText⟩,
    ⟨"vtable-format", .valued fun value => (VtableEncoding.ofName? value).isSome⟩,
    ⟨"glob", anyText⟩, ⟨"no-fix-getters", .switch⟩, ⟨"compact-json", .switch⟩,
    ⟨"report", .switch⟩]

def showOptions : List OptionSpec := [⟨"classes", pathText⟩, ⟨"prototypes", pathText⟩]

/-- What was read at one level: options with their values, the latest first, and plain words in
reverse order. A switch has the empty value. -/
structure Words where
  options : List (String × String)
  plain : List String

namespace Words

def empty : Words := ⟨[], []⟩

def option? (w : Words) (name : String) : Option String := w.options.lookup name

def isSet (w : Words) (name : String) : Bool := (w.option? name).isSome

/-- Adds an option with its value, which must be the first one. -/
def add (w : Words) (spec : OptionSpec) (value : String) : Except UsageError Words :=
  if w.isSet spec.name then .error (.repeatedOption spec.name)
  else
    match spec.kind with
    | .switch => .ok { w with options := (spec.name, value) :: w.options }
    | .valued accepts =>
      if accepts value then .ok { w with options := (spec.name, value) :: w.options }
      else .error (.invalidValue spec.name value)

end Words

/-- A word by its dashes. A single dash alone is a plain word. -/
inductive Word
  | plain (text : String)
  | divider
  | short (letter : Char)
  | long (name : String) (value : Option String)
deriving DecidableEq

/-- The name of a long option and what follows its equals sign. -/
def longWord (cs : List Char) : Word :=
  let name := cs.takeWhile (· != '=')
  let value := match cs.drop name.length with
    | [] => none
    | _ :: value => some (String.ofList value)
  .long (String.ofList name) value

def Word.ofText (text : String) : Word :=
  match text.toList with
  | ['-', '-'] => .divider
  | '-' :: '-' :: cs => longWord cs
  | '-' :: c :: _ => .short c
  | _ => .plain text

/-- How reading a level ends. -/
inductive Reading
  | help
  | version
  /-- All words are read. -/
  | finished (words : Words)
  /-- A plain word ended the level; the words after it are left. -/
  | stopped (words : Words) (word : String) (rest : List String)

/-- What a level of the command line allows. -/
structure Level where
  options : List OptionSpec
  /-- Whether the version can be asked for. -/
  hasVersion : Bool
  /-- How many plain words there may be, or none when the first one ends the level. -/
  plainWords : Option Nat

/-- Takes the words after the divider, all of which are plain. -/
def readPlain (level : Level) (w : Words) : List String → Except UsageError Reading
  | [] => .ok (.finished w)
  | text :: rest =>
    if w.plain.length < level.plainWords.getD 0 then
      readPlain level { w with plain := text :: w.plain } rest
    else .error (.unknownWord text)

/-- Reads the words of a level. -/
def read (level : Level) (w : Words) : List String → Except UsageError Reading
  | [] => .ok (.finished w)
  | text :: rest =>
    match Word.ofText text with
    | .divider => readPlain level w rest
    | .plain text =>
      match level.plainWords with
      | none => .ok (.stopped w text rest)
      | some count =>
        if w.plain.length < count then read level { w with plain := text :: w.plain } rest
        else .error (.unknownWord text)
    | .short letter =>
      if letter = 'h' then .ok .help
      else if letter = 'V' && level.hasVersion then .ok .version
      else .error (.unknownWord text)
    | .long name value =>
      match level.options.find? fun spec => spec.name == name, value with
      | none, none =>
        if name = "help" then .ok .help
        else if name = "version" && level.hasVersion then .ok .version
        else .error (.unknownWord text)
      | none, some _ => .error (.unknownWord text)
      | some spec, value =>
        match spec.kind, value, rest with
        | .switch, some _, _ => .error (.unexpectedValue name)
        | .switch, none, rest => do read level (← w.add spec "") rest
        | .valued _, some value, rest => do read level (← w.add spec value) rest
        | .valued _, none, [] => .error (.missingValue name)
        | .valued _, none, next :: rest =>
          match Word.ofText next with
          | .plain value => do read level (← w.add spec value) rest
          | _ => .error (.missingValue name)

structure MergeRequest where
  classes : String
  observations : String
  flags : FlagValues
  report : Bool

structure ShowRequest where
  className : String
  classes : String
  prototypes : String

inductive Request
  | help
  | version
  | merge (request : MergeRequest)
  | showClass (request : ShowRequest)

def required (name : String) : Option String → Except UsageError String
  | some value => .ok value
  | none => .error (.missing name)

def mergeRequest (w : Words) : Except UsageError MergeRequest := do
  let classes ← required "--classes" (w.option? "classes")
  let observations ← required "--observations" (w.option? "observations")
  let isSet (name : String) : Option Bool := if w.isSet name then some false else none
  return {
    classes
    observations
    flags :=
      { outDir := w.option? "out-dir"
        encoding := (w.option? "vtable-format").bind VtableEncoding.ofName?
        glob := w.option? "glob"
        fixGetters := isSet "no-fix-getters"
        pretty := isSet "compact-json" }
    report := w.isSet "report" }

def showRequest (w : Words) : Except UsageError ShowRequest := do
  let className ← required "CLASS" w.plain.getLast?
  return {
    className
    classes := (w.option? "classes").getD Run.classesFile
    prototypes := (w.option? "prototypes").getD Run.prototypesFile }

/-- The request of a level that was read to its end. -/
def finish {α : Type} (request : α → Request) (build : Words → Except UsageError α) :
    Reading → Except UsageError Request
  | .help => .ok .help
  | .version => .ok .version
  | .finished w => do return request (← build w)
  | .stopped _ word _ => .error (.unknownWord word)

def subcommand (name : String) (rest : List String) : Except UsageError Request :=
  match name with
  | "merge" => do
    let reading ← read ⟨mergeOptions ++ globalOptions, false, some 0⟩ Words.empty rest
    finish .merge mergeRequest reading
  | "show" => do
    let reading ← read ⟨showOptions ++ globalOptions, false, some 1⟩ Words.empty rest
    finish .showClass showRequest reading
  | "help" =>
    match rest with
    | [] | ["merge"] | ["show"] | ["help"] => .ok .help
    | word :: _ => .error (.unknownWord word)
  | _ => .error (.unknownWord name)

def Request.ofWords (words : List String) : Except UsageError Request := do
  match ← read ⟨globalOptions, true, none⟩ Words.empty words with
  | .help => return .help
  | .version => return .version
  | .finished _ => .error (.missing "subcommand")
  | .stopped _ name rest => subcommand name rest

/-- What a process leaves behind: its exit code and the texts on its two outputs. -/
structure Outcome where
  exitCode : Nat
  output : String
  complaint : String
deriving DecidableEq

def versionText : String := "protomerge 0.1.0\n"

def usageText : String :=
  "Usage: protomerge [--log-level LEVEL] [--log-json] COMMAND\n\n"
    ++ "Commands:\n"
    ++ "  merge --classes PATH --observations DIR [--out-dir DIR] [--vtable-format FORMAT]\n"
    ++ "        [--glob PATTERN] [--no-fix-getters] [--compact-json] [--report]\n"
    ++ "  show CLASS [--classes PATH] [--prototypes PATH]\n"

namespace Outcome

open Json (Layout Value)

def success (output : String) : Outcome := ⟨0, output, ""⟩

def ofValue (exitCode : Nat) (layout : Layout) (value : Value) : Outcome :=
  ⟨exitCode, String.ofList (value.document layout), ""⟩

/-- Failures are answers like any others, always laid out. -/
def ofFailure (f : Failure) : Outcome := ofValue f.code .pretty f.response.toJson

end Outcome

variable {m : Type → Type} [Monad m]

def runMerge (fs : FileSystem m) (env : Environment) (generatedAt : String)
    (r : MergeRequest) : m Outcome := do
  match Settings.resolve r.flags env with
  | .error e => return .ofFailure (.ofSettingError e)
  | .ok settings =>
    match ← (Run.merge fs settings r.classes r.observations r.report generatedAt).run with
    | .error f => return .ofFailure f
    | .ok report => return .ofValue 0 (Run.layout settings.pretty.value) report.toJson

def runShow (fs : FileSystem m) (r : ShowRequest) : m Outcome := do
  match ← (Run.showClass fs r.classes r.prototypes r.className).run with
  | .error f => return .ofFailure f
  | .ok v => return .ofValue 0 .pretty v.toJson

/-- Runs the command of some words. A command line that cannot be read gives no output. -/
def run (fs : FileSystem m) (env : Environment) (generatedAt : String) (words : List String) :
    m Outcome :=
  match Request.ofWords words with
  | .error e => return ⟨2, "", "error: " ++ e.message ++ "\n\n" ++ usageText⟩
  | .ok .help => return .success usageText
  | .ok .version => return .success versionText
  | .ok (.merge r) => runMerge fs env generatedAt r
  | .ok (.showClass r) => runShow fs r

end VtableMerge.CommandLine
