import VtableMerge.Text.Utf8

/-!
File-name patterns and the byte sequences they match. A token takes some bytes, and a pattern
matches a name when its tokens can take all of it one after the other. Matching keeps all places
that the tokens so far can reach, so that its cost grows with the name and the pattern only.
-/
namespace VtableMerge.Glob

/-- Characters of a class, from the first to the last. -/
structure CharRange where
  first : Char
  last : Char
deriving DecidableEq

namespace CharRange

/-- Whether a byte belongs to the range. A character of several bytes stands for each of them,
and a range runs from the last byte of its first character to the first byte of its last. -/
def containsByte (r : CharRange) (b : UInt8) : Bool :=
  let first := String.utf8EncodeChar r.first
  let last := String.utf8EncodeChar r.last
  first.contains b || last.contains b
    || (r.first != r.last && first.getLastD 0 ≤ b && b ≤ last.headD 0)

end CharRange

inductive Token
  | literal (c : Char)
  /-- Any one byte. -/
  | any
  /-- Any bytes. -/
  | zeroOrMore
  /-- Nothing, or anything that ends in a slash. -/
  | leadingDirs
  /-- A slash and anything after it. -/
  | trailing
  /-- A slash, or anything between two slashes with them. -/
  | middleDirs
  | charClass (negated : Bool) (ranges : List CharRange)
  | alternatives (branches : List (List Token))

abbrev Pattern := List Token

def slash : UInt8 := 0x2F

/-- Places in a name: one mark before each byte and one at the end. Marked are the places where
the pattern read so far can end. -/
abbrev Marks := List Bool

namespace Marks

/-- The front of a name is marked. -/
def start (name : List UInt8) : Marks := true :: name.map fun _ => false

/-- Moves every mark over the byte after it. A mark before a byte that fails the test is lost. -/
def advance (name : List UInt8) (test : UInt8 → Bool) (marks : Marks) : Marks :=
  false :: List.zipWith (fun b marked => marked && test b) name marks

/-- Marks every place after a marked one, too. -/
def spread (marked : Bool) : Marks → Marks
  | [] => []
  | m :: ms => (marked || m) :: spread (marked || m) ms

def union (a b : Marks) : Marks := List.zipWith or a b

end Marks

mutual

/-- Whether a token says nothing at all, like a group without alternatives. -/
def Token.isVoid : Token → Bool
  | .alternatives branches => branchesAreVoid branches
  | _ => false

def isVoidPattern : List Token → Bool
  | [] => true
  | t :: ts => t.isVoid && isVoidPattern ts

def branchesAreVoid : List (List Token) → Bool
  | [] => true
  | p :: ps => isVoidPattern p && branchesAreVoid ps

end

mutual

/-- Where a token can end that begins at a mark. -/
def Token.step (name : List UInt8) : Token → Marks → Marks
  | .literal c, marks =>
    (String.utf8EncodeChar c).foldl (fun marks b => marks.advance name (· == b)) marks
  | .any, marks => marks.advance name fun _ => true
  | .zeroOrMore, marks => marks.spread false
  | .leadingDirs, marks => marks.union ((marks.spread false).advance name (· == slash))
  | .trailing, marks => (marks.advance name (· == slash)).spread false
  | .middleDirs, marks =>
    let behind := marks.advance name (· == slash)
    behind.union ((behind.spread false).advance name (· == slash))
  | .charClass negated ranges, marks =>
    marks.advance name fun b => ranges.any (fun r => r.containsByte b) != negated
  | .alternatives branches, marks =>
    if branchesAreVoid branches then marks else stepBranches name branches marks

/-- Where the tokens of a pattern can end one after the other. -/
def stepPattern (name : List UInt8) : List Token → Marks → Marks
  | [], marks => marks
  | t :: ts, marks => stepPattern name ts (t.step name marks)

/-- Where one of the alternatives can end. Those that say nothing are left out. -/
def stepBranches (name : List UInt8) : List (List Token) → Marks → Marks
  | [], marks => marks.map fun _ => false
  | p :: ps, marks =>
    let others := stepBranches name ps marks
    if isVoidPattern p then others else (stepPattern name p marks).union others

end

namespace Pattern

/-- Whether a pattern matches a whole name. Leading directories alone match everything. -/
def isMatch (p : Pattern) (name : List UInt8) : Bool :=
  match p with
  | [.leadingDirs] => true
  | p => (stepPattern name p (Marks.start name)).getLastD false

end Pattern

end VtableMerge.Glob
