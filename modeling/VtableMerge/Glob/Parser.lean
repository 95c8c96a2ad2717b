import VtableMerge.Glob.Pattern

/-!
Reading patterns. Groups of alternatives may be nested, so the tokens around an open group are
kept until it is closed. Two stars stand for directories only where a directory can begin and
end; elsewhere they are two stars.
-/
namespace VtableMerge.Glob

inductive PatternError
  | unclosedClass
  | invalidRange (first last : Char)
  | danglingEscape
  | unclosedGroup
  | unopenedGroup
deriving DecidableEq

namespace PatternError

def reason : PatternError → String
  | unclosedClass => "unclosed character class; missing ']'"
  | invalidRange first last =>
    "invalid range; '" ++ first.toString ++ "' > '" ++ last.toString ++ "'"
  | danglingEscape => "dangling '\\'"
  | unclosedGroup =>
    "unclosed alternate group; missing '\x7d' (maybe escape '\x7b' with '[\x7b]'?)"
  | unopenedGroup =>
    "unopened alternate group; missing '\x7b' (maybe escape '\x7d' with '[\x7d]'?)"

def message (pattern : String) (e : PatternError) : String :=
  "error parsing glob '" ++ pattern ++ "': " ++ e.reason

end PatternError

/-- A group that is still open: the tokens before it and its finished alternatives, both with the
last one first. -/
structure OpenGroup where
  before : List Token
  finished : List (List Token)

/-- The open groups from the inside out, and the tokens of the current alternative with the last
one first. -/
structure Draft where
  groups : List OpenGroup
  tokens : List Token

namespace Draft

def empty : Draft := ⟨[], []⟩

def push (d : Draft) (t : Token) : Draft := { d with tokens := t :: d.tokens }

def isInGroup (d : Draft) : Bool := !d.groups.isEmpty

def openGroup (d : Draft) : Draft := ⟨⟨d.tokens, []⟩ :: d.groups, []⟩

def closeGroup? (d : Draft) : Option Draft :=
  match d.groups with
  | [] => none
  | g :: gs =>
    some ⟨gs, .alternatives (g.finished.reverse ++ [d.tokens.reverse]) :: g.before⟩

/-- A comma separates alternatives inside a group and is a character outside. -/
def comma (d : Draft) : Draft :=
  match d.groups with
  | [] => d.push (.literal ',')
  | g :: gs => ⟨{ g with finished := d.tokens.reverse :: g.finished } :: gs, []⟩

def twoStars (d : Draft) : Draft := (d.push .zeroOrMore).push .zeroOrMore

/-- Puts directories in place of the slash before two stars. -/
def replaceLast (d : Draft) (t : Token) : Draft :=
  match d.tokens with
  | .leadingDirs :: _ => d
  | .trailing :: _ => d
  | _ :: ts => { d with tokens := t :: ts }
  | [] => d.push t

/-- Adds two stars between the character before them and the one after them, and tells whether
they take that one with them. -/
def doubleStar (d : Draft) (before after : Option Char) : Draft × Bool :=
  if d.tokens.isEmpty then
    match after with
    | none => (d.push .leadingDirs, false)
    | some '/' => (d.push .leadingDirs, true)
    | some _ => (d.twoStars, false)
  else if before != some '/' && !(d.isInGroup && (before == some ',' || before == some '{')) then
    (d.twoStars, false)
  else
    match after with
    | none => (d.replaceLast .trailing, false)
    | some '/' => (d.replaceLast .middleDirs, true)
    | some c =>
      if d.isInGroup && (c == ',' || c == '}') then (d.replaceLast .trailing, false)
      else (d.twoStars, false)

end Draft

/-- A character class that is still open. The ranges have the last one first. -/
structure OpenClass where
  negated : Bool
  isFirst : Bool
  inRange : Bool
  ranges : List CharRange

namespace OpenClass

def begin (negated : Bool) : OpenClass := ⟨negated, true, false, []⟩

def add (k : OpenClass) (c : Char) : OpenClass :=
  { k with isFirst := false, inRange := false, ranges := ⟨c, c⟩ :: k.ranges }

/-- Ends the last range at a character. -/
def endRange (k : OpenClass) (c : Char) : Except PatternError OpenClass :=
  match k.ranges with
  | [] => .ok (k.add c)
  | r :: rs =>
    if c < r.first then .error (.invalidRange r.first c)
    else .ok { k with inRange := false, ranges := ⟨r.first, c⟩ :: rs }

/-- Reads a character that does not close the class. -/
def read (k : OpenClass) (c : Char) : Except PatternError OpenClass :=
  if k.inRange then k.endRange c
  else if c = '-' && !k.isFirst then .ok { k with inRange := true }
  else .ok (k.add c)

/-- The token of a closed class. A dash at the end stands for itself. -/
def token (k : OpenClass) : Token :=
  .charClass k.negated
    (if k.inRange then (⟨'-', '-'⟩ :: k.ranges).reverse else k.ranges.reverse)

end OpenClass

/-- Reads on with a draft, perhaps inside a class, after a character. -/
def scan (inside : Option OpenClass) (before : Option Char) (d : Draft) :
    List Char → Except PatternError Draft
  | [] =>
    match inside with
    | some _ => .error .unclosedClass
    | none => if d.isInGroup then .error .unclosedGroup else .ok d
  | c :: rest =>
    match inside with
    | some k =>
      if c = ']' && !k.isFirst then scan none (some c) (d.push k.token) rest
      else
        match k.read c with
        | .error e => .error e
        | .ok k => scan (some k) (some c) d rest
    | none =>
      match c with
      | '?' => scan none (some c) (d.push .any) rest
      | '[' =>
        match rest with
        | '!' :: rest => scan (some (.begin true)) (some '!') d rest
        | '^' :: rest => scan (some (.begin true)) (some '^') d rest
        | rest => scan (some (.begin false)) (some c) d rest
      | '{' => scan none (some c) d.openGroup rest
      | '}' =>
        match d.closeGroup? with
        | none => .error .unopenedGroup
        | some d => scan none (some c) d rest
      | ',' => scan none (some c) d.comma rest
      | '\\' =>
        match rest with
        | [] => .error .danglingEscape
        | e :: rest => scan none (some e) (d.push (.literal e)) rest
      | '*' =>
        match rest with
        | '*' :: rest =>
          match rest, d.doubleStar before rest.head? with
          | next :: rest, (d, true) => scan none (some next) d rest
          | rest, (d, _) => scan none (some c) d rest
        | rest => scan none (some c) (d.push .zeroOrMore) rest
      | c => scan none (some c) (d.push (.literal c)) rest

namespace Pattern

/-- The pattern of a text, or the first fault in it. Groups are only missed at the end. -/
def ofText (text : String) : Except PatternError Pattern :=
  (scan none none Draft.empty text.toList).map fun d => d.tokens.reverse

end Pattern

end VtableMerge.Glob
