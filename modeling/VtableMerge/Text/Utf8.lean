/-!
Texts as bytes. Reading never fails: a byte that belongs to no well-formed sequence is a hole,
so that a reader decides for itself where holes are harmless.
-/
namespace VtableMerge.Utf8

/-- A character, or the hole left by a byte that encodes none. -/
abbrev Symbol := Option Char

def encode (cs : List Char) : List UInt8 := cs.flatMap String.utf8EncodeChar

def encodeString (text : String) : List UInt8 := encode text.toList

/-- The payload of a continuation byte. -/
def tail? (b : UInt8) : Option Nat :=
  if 0x80 ≤ b && b ≤ 0xBF then some (b.toNat - 0x80) else none

/-- The character with a code point in a range; no surrogate is a character. -/
def charIn? (low high code : Nat) : Option Char :=
  if low ≤ code && code ≤ high && !(0xD800 ≤ code && code ≤ 0xDFFF) then some (Char.ofNat code)
  else none

/-- The character that starts with a byte, and the number of bytes after it that belong to it.
Only the shortest encoding of a character counts. -/
def leading? (a : UInt8) (rest : List UInt8) : Option (Char × Nat) :=
  if a < 0x80 then some (Char.ofNat a.toNat, 0)
  else if a < 0xC0 then none
  else if a < 0xE0 then
    match rest with
    | b :: _ => do
      let x ← tail? b
      let char ← charIn? 0x80 0x7FF ((a.toNat - 0xC0) * 64 + x)
      return (char, 1)
    | _ => none
  else if a < 0xF0 then
    match rest with
    | b :: c :: _ => do
      let x ← tail? b
      let y ← tail? c
      let char ← charIn? 0x800 0xFFFF (((a.toNat - 0xE0) * 64 + x) * 64 + y)
      return (char, 2)
    | _ => none
  else if a < 0xF8 then
    match rest with
    | b :: c :: d :: _ => do
      let x ← tail? b
      let y ← tail? c
      let z ← tail? d
      let char ← charIn? 0x10000 0x10FFFF ((((a.toNat - 0xF0) * 64 + x) * 64 + y) * 64 + z)
      return (char, 3)
    | _ => none
  else none

/-- Reads on after some symbols, the last of them first, and leaves out bytes that belong to
the character just read. -/
def symbolsFrom (read : List Symbol) : Nat → List UInt8 → List Symbol
  | _, [] => read.reverse
  | skip + 1, _ :: rest => symbolsFrom read skip rest
  | 0, a :: rest =>
    match leading? a rest with
    | some (char, skip) => symbolsFrom (some char :: read) skip rest
    | none => symbolsFrom (none :: read) 0 rest

def symbols (bytes : List UInt8) : List Symbol := symbolsFrom [] 0 bytes

/-- The characters of a text without holes. -/
def decode? (bytes : List UInt8) : Option (List Char) := (symbols bytes).mapM id

end VtableMerge.Utf8
