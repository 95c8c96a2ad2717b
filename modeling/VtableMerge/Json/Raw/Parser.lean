import VtableMerge.Json.Raw

/-!
The tree of a text. Parsing never fails: where the text stops being JSON the tree has a broken
value or an unclosed array or object, and nothing behind that place is looked at.
-/
namespace VtableMerge.Json.Raw

open Utf8 (Symbol)

def isBlank : Symbol → Bool
  | some c => c == ' ' || c == '\t' || c == '\n' || c == '\r'
  | none => false

def skipBlanks (s : List Symbol) : List Symbol := s.dropWhile isBlank

/-- The rest of a text that starts with a word. -/
def afterWord? : List Char → List Symbol → Option (List Symbol)
  | [], s => some s
  | w :: ws, some c :: s => if c = w then afterWord? ws s else none
  | _ :: _, _ => none

def digit? : Symbol → Option Nat
  | some c => if '0' ≤ c && c ≤ '9' then some (c.toNat - 48) else none
  | none => none

/-- The digits in front of a text and the rest. -/
def digits : List Symbol → List Nat × List Symbol
  | [] => ([], [])
  | c :: s =>
    match digit? c with
    | none => ([], c :: s)
    | some d =>
      let (ds, rest) := digits s
      (d :: ds, rest)

/-- The fraction in front of a text: a point and at least one digit. -/
def fraction? (s : List Symbol) : Option (List Nat × List Symbol) :=
  match s with
  | some '.' :: s =>
    let (ds, rest) := digits s
    if ds.isEmpty then none else some (ds, rest)
  | _ => some ([], s)

/-- The sign in front of the digits of an exponent. -/
def exponentSign : List Symbol → Bool × List Symbol
  | some '+' :: s => (false, s)
  | some '-' :: s => (true, s)
  | s => (false, s)

def exponentDigits? (s : List Symbol) : Option (Option Exponent × List Symbol) :=
  let (isNegative, s) := exponentSign s
  let (ds, rest) := digits s
  if ds.isEmpty then none else some (some ⟨isNegative, ds⟩, rest)

def exponent? (s : List Symbol) : Option (Option Exponent × List Symbol) :=
  match s with
  | some 'e' :: s => exponentDigits? s
  | some 'E' :: s => exponentDigits? s
  | _ => some (none, s)

/-- The numeral in front of a text. Only a whole part of one digit may start with zero. -/
def numeral? (s : List Symbol) : Option (Numeral × List Symbol) := do
  let (isNegative, s) := match s with
    | some '-' :: s => (true, s)
    | s => (false, s)
  let (whole, s) := digits s
  if whole.isEmpty || (whole.head? == some 0 && 1 < whole.length) then none
  else
    let (fraction, s) ← fraction? s
    let (exponent, s) ← exponent? s
    return (⟨isNegative, whole, fraction, exponent⟩, s)

/-- A piece of a string: a character, a code unit given by its number, or a hole. -/
inductive Piece
  | char (c : Char)
  | unit (n : Nat)
  | hole
deriving DecidableEq

def hexValue? : Symbol → Option Nat
  | some c =>
    if '0' ≤ c && c ≤ '9' then some (c.toNat - 48)
    else if 'a' ≤ c && c ≤ 'f' then some (c.toNat - 87)
    else if 'A' ≤ c && c ≤ 'F' then some (c.toNat - 55)
    else none
  | none => none

def unit? (a b c d : Symbol) : Option Nat := do
  let a ← hexValue? a
  let b ← hexValue? b
  let c ← hexValue? c
  let d ← hexValue? d
  return ((a * 16 + b) * 16 + c) * 16 + d

/-- The character that a letter after a backslash stands for. -/
def escaped? : Char → Option Char
  | '"' => some '"'
  | '\\' => some '\\'
  | '/' => some '/'
  | 'b' => some '\x08'
  | 'f' => some '\x0c'
  | 'n' => some '\n'
  | 'r' => some '\r'
  | 't' => some '\t'
  | _ => none

/-- The pieces up to the closing quote, after those already read, the last of them first. -/
def pieces? (read : List Piece) : List Symbol → Option (List Piece × List Symbol)
  | [] => none
  | none :: s => pieces? (.hole :: read) s
  | some '"' :: s => some (read.reverse, s)
  | some '\\' :: some 'u' :: a :: b :: c :: d :: s =>
    match unit? a b c d with
    | some n => pieces? (.unit n :: read) s
    | none => none
  | some '\\' :: some c :: s =>
    match escaped? c with
    | some e => pieces? (.char e :: read) s
    | none => none
  | some c :: s => if c = '\\' || c < ' ' then none else pieces? (.char c :: read) s

def isHighSurrogate (n : Nat) : Bool := 0xD800 ≤ n && n < 0xDC00

def isLowSurrogate (n : Nat) : Bool := 0xDC00 ≤ n && n < 0xE000

/-- The characters of a string. A high surrogate needs the low one right after it. -/
def content? : List Piece → Option (List Char)
  | [] => some []
  | .char c :: ps => (content? ps).map (c :: ·)
  | .unit n :: .unit m :: ps =>
    if isHighSurrogate n then
      if isLowSurrogate m then
        (content? ps).map (Char.ofNat (0x10000 + (n - 0xD800) * 0x400 + (m - 0xDC00)) :: ·)
      else none
    else if isLowSurrogate n then none
    else (content? (.unit m :: ps)).map (Char.ofNat n :: ·)
  | .unit n :: ps =>
    if isHighSurrogate n || isLowSurrogate n then none
    else (content? ps).map (Char.ofNat n :: ·)
  | .hole :: _ => none

mutual

/-- The value in front of a text and the rest, which is empty when the value breaks off. Each
call takes one unit of fuel. -/
def parseValue : Nat → List Symbol → Raw × List Symbol
  | 0, _ => (.broken, [])
  | fuel + 1, s =>
    match skipBlanks s with
    | some '[' :: s =>
      match skipBlanks s with
      | some ']' :: rest => (.array [] true, rest)
      | s =>
        let (items, closed, rest) := parseItems fuel s
        (.array items closed, rest)
    | some '{' :: s =>
      match skipBlanks s with
      | some '}' :: rest => (.object [] true, rest)
      | s =>
        let (entries, closed, rest) := parseEntries fuel s
        (.object entries closed, rest)
    | some '"' :: s =>
      match pieces? [] s with
      | some (ps, rest) => (.string ((content? ps).map String.ofList), rest)
      | none => (.broken, [])
    | some 'n' :: s =>
      match afterWord? ['u', 'l', 'l'] s with
      | some rest => (.null, rest)
      | none => (.broken, [])
    | some 't' :: s =>
      match afterWord? ['r', 'u', 'e'] s with
      | some rest => (.bool true, rest)
      | none => (.broken, [])
    | some 'f' :: s =>
      match afterWord? ['a', 'l', 's', 'e'] s with
      | some rest => (.bool false, rest)
      | none => (.broken, [])
    | s =>
      match numeral? s with
      | some (n, rest) => (.number n, rest)
      | none => (.broken, [])

def parseItems : Nat → List Symbol → List Raw × Bool × List Symbol
  | 0, _ => ([], false, [])
  | fuel + 1, s =>
    let (item, s) := parseValue fuel s
    match skipBlanks s with
    | some ',' :: s =>
      let (items, closed, rest) := parseItems fuel s
      (item :: items, closed, rest)
    | some ']' :: rest => ([item], true, rest)
    | _ => ([item], false, [])

def parseEntries : Nat → List Symbol → List (Raw × Raw) × Bool × List Symbol
  | 0, _ => ([], false, [])
  | fuel + 1, s =>
    let (key, s) := parseValue fuel s
    match skipBlanks s with
    | some ':' :: s =>
      let (item, s) := parseValue fuel s
      match skipBlanks s with
      | some ',' :: s =>
        let (entries, closed, rest) := parseEntries fuel s
        ((key, item) :: entries, closed, rest)
      | some '}' :: rest => ([(key, item)], true, rest)
      | _ => ([(key, item)], false, [])
    | _ => ([(key, .broken)], false, [])

end

/-- The document of a text. A chain of calls passes a symbol at least at every second call, so
the fuel never runs out. -/
def parse (s : List Symbol) : Document :=
  let (root, rest) := parseValue (2 * s.length + 2) s
  ⟨root, (skipBlanks rest).isEmpty⟩

def ofBytes (bytes : List UInt8) : Document := parse (Utf8.symbols bytes)

end VtableMerge.Json.Raw
