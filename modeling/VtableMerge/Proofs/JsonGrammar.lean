import VtableMerge.Json.Raw.Parser

/-!
The grammar of JSON texts: which texts spell a tree. A text may have blanks between its parts,
and a string may be written in many ways; a tree that is spelled is neither broken nor unclosed.
-/
namespace VtableMerge.Json

def blanks : List Char := [' ', '\t', '\n', '\r']

def Blank (text : List Char) : Prop := ∀ c ∈ text, c ∈ blanks

theorem blank_nil : Blank [] := List.forall_mem_nil _

section Numerals

def digitsText (ds : List Nat) : List Char := ds.map Nat.digitChar

structure AreDigits (ds : List Nat) : Prop where
  some_digit : ds ≠ []
  decimal : ∀ d ∈ ds, d < 10

inductive SpellsFraction : List Char → List Nat → Prop
  | absent : SpellsFraction [] []
  | present {ds : List Nat} (hds : AreDigits ds) : SpellsFraction ('.' :: digitsText ds) ds

/-- The sign in front of the digits of an exponent, which may be left out. -/
inductive SpellsSign : List Char → Bool → Prop
  | none : SpellsSign [] false
  | plus : SpellsSign ['+'] false
  | minus : SpellsSign ['-'] true

inductive SpellsExponent : List Char → Option Exponent → Prop
  | absent : SpellsExponent [] none
  | present {mark : Char} {sign : List Char} {isNegative : Bool} {ds : List Nat}
      (hmark : mark = 'e' ∨ mark = 'E') (hsign : SpellsSign sign isNegative)
      (hds : AreDigits ds) :
      SpellsExponent (mark :: (sign ++ digitsText ds)) (some ⟨isNegative, ds⟩)

/-- A whole part of more than one digit does not start with zero. -/
inductive SpellsNumeral : List Char → Numeral → Prop
  | mk {isNegative : Bool} {whole fraction : List Nat} {exponent : Option Exponent}
      {fractionText exponentText : List Char} (hwhole : AreDigits whole)
      (hzero : whole.head? = some 0 → whole = [0])
      (hfraction : SpellsFraction fractionText fraction)
      (hexponent : SpellsExponent exponentText exponent) :
      SpellsNumeral ((if isNegative then ['-'] else []) ++
          (digitsText whole ++ (fractionText ++ exponentText)))
        ⟨isNegative, whole, fraction, exponent⟩

end Numerals

/-- The text between the quotes of a string, and the content of the string. A code unit is given
by four hexadecimal digits, and a character beyond 16 bits by two of them, the high surrogate
first. -/
inductive SpellsContent : List Char → List Char → Prop
  | done : SpellsContent [] []
  | plain {c : Char} {text cs : List Char} (hquote : c ≠ '"') (hbackslash : c ≠ '\\')
      (hcontrol : ¬ c < ' ') (hrest : SpellsContent text cs) : SpellsContent (c :: text) (c :: cs)
  | letter {letter c : Char} {text cs : List Char} (hletter : Raw.escaped? letter = some c)
      (hrest : SpellsContent text cs) : SpellsContent ('\\' :: letter :: text) (c :: cs)
  | unit {x y z w : Char} {n : Nat} {text cs : List Char}
      (hunit : Raw.unit? (some x) (some y) (some z) (some w) = some n)
      (hhigh : Raw.isHighSurrogate n = false) (hlow : Raw.isLowSurrogate n = false)
      (hrest : SpellsContent text cs) :
      SpellsContent ('\\' :: 'u' :: x :: y :: z :: w :: text) (Char.ofNat n :: cs)
  | pair {x y z w x' y' z' w' : Char} {n m : Nat} {text cs : List Char}
      (hfirst : Raw.unit? (some x) (some y) (some z) (some w) = some n)
      (hsecond : Raw.unit? (some x') (some y') (some z') (some w') = some m)
      (hhigh : Raw.isHighSurrogate n = true) (hlow : Raw.isLowSurrogate m = true)
      (hrest : SpellsContent text cs) :
      SpellsContent ('\\' :: 'u' :: x :: y :: z :: w :: '\\' :: 'u' :: x' :: y' :: z' :: w' :: text)
        (Char.ofNat (0x10000 + (n - 0xD800) * 0x400 + (m - 0xDC00)) :: cs)

/-- The text between the quotes of a string, piece by piece. Here a code unit may be anything, a
surrogate without its other half included. -/
inductive SpellsPieces : List Char → List Raw.Piece → Prop
  | done : SpellsPieces [] []
  | plain {c : Char} {text : List Char} {ps : List Raw.Piece} (hquote : c ≠ '"')
      (hbackslash : c ≠ '\\') (hcontrol : ¬ c < ' ') (hrest : SpellsPieces text ps) :
      SpellsPieces (c :: text) (.char c :: ps)
  | letter {letter c : Char} {text : List Char} {ps : List Raw.Piece}
      (hletter : Raw.escaped? letter = some c) (hrest : SpellsPieces text ps) :
      SpellsPieces ('\\' :: letter :: text) (.char c :: ps)
  | unit {x y z w : Char} {n : Nat} {text : List Char} {ps : List Raw.Piece}
      (hunit : Raw.unit? (some x) (some y) (some z) (some w) = some n)
      (hrest : SpellsPieces text ps) :
      SpellsPieces ('\\' :: 'u' :: x :: y :: z :: w :: text) (.unit n :: ps)

/-- The texts of a string. One with a surrogate that is part of no pair has no content. -/
inductive SpellsString : List Char → Option String → Prop
  | whole {text cs : List Char} (hcontent : SpellsContent text cs) :
      SpellsString ('"' :: (text ++ ['"'])) (some (String.ofList cs))
  | torn {text : List Char} {ps : List Raw.Piece} (hpieces : SpellsPieces text ps)
      (htorn : Raw.content? ps = none) : SpellsString ('"' :: (text ++ ['"'])) none

mutual

inductive Spells : List Char → Raw → Prop
  | null : Spells ['n', 'u', 'l', 'l'] .null
  | true : Spells ['t', 'r', 'u', 'e'] (.bool true)
  | false : Spells ['f', 'a', 'l', 's', 'e'] (.bool false)
  | number {text : List Char} {n : Numeral} (hn : SpellsNumeral text n) : Spells text (.number n)
  | string {text : List Char} {content : Option String} (hs : SpellsString text content) :
      Spells text (.string content)
  | emptyArray {gap : List Char} (hgap : Blank gap) :
      Spells ('[' :: (gap ++ [']'])) (.array [] true)
  | array {text : List Char} {items : List Raw} (hitems : SpellsItems text items) :
      Spells ('[' :: text) (.array items true)
  | emptyObject {gap : List Char} (hgap : Blank gap) :
      Spells ('{' :: (gap ++ ['}'])) (.object [] true)
  | object {text : List Char} {entries : List (Raw × Raw)} (hentries : SpellsEntries text entries) :
      Spells ('{' :: text) (.object entries true)

inductive SpellsItems : List Char → List Raw → Prop
  | last {before text behind : List Char} {item : Raw} (hbefore : Blank before)
      (hitem : Spells text item) (hbehind : Blank behind) :
      SpellsItems (before ++ (text ++ (behind ++ [']']))) [item]
  | more {before text behind rest : List Char} {item : Raw} {items : List Raw}
      (hbefore : Blank before) (hitem : Spells text item) (hbehind : Blank behind)
      (hrest : SpellsItems rest items) :
      SpellsItems (before ++ (text ++ (behind ++ ',' :: rest))) (item :: items)

inductive SpellsEntries : List Char → List (Raw × Raw) → Prop
  | last {before keyText gap before' text behind : List Char} {key : Option String}
      {item : Raw} (hbefore : Blank before) (hkey : SpellsString keyText key) (hgap : Blank gap)
      (hbefore' : Blank before') (hitem : Spells text item) (hbehind : Blank behind) :
      SpellsEntries
        (before ++ (keyText ++ (gap ++ ':' :: (before' ++ (text ++ (behind ++ ['}']))))))
        [(.string key, item)]
  | more {before keyText gap before' text behind rest : List Char} {key : Option String}
      {item : Raw} {entries : List (Raw × Raw)} (hbefore : Blank before)
      (hkey : SpellsString keyText key) (hgap : Blank gap) (hbefore' : Blank before')
      (hitem : Spells text item) (hbehind : Blank behind) (hrest : SpellsEntries rest entries) :
      SpellsEntries
        (before ++ (keyText ++ (gap ++ ':' :: (before' ++ (text ++ (behind ++ ',' :: rest))))))
        ((.string key, item) :: entries)

end

section Whole

mutual

theorem isWhole_of_spells {text : List Char} {raw : Raw} (h : Spells text raw) :
    raw.isWhole = true := by
  match h with
  | .null => rfl
  | .true => rfl
  | .false => rfl
  | .number _ => rfl
  | .string _ => rfl
  | .emptyArray _ => rfl
  | .array hitems => rw [Raw.isWhole, areWhole_of_spells hitems, Bool.and_true]
  | .emptyObject _ => rfl
  | .object hentries => rw [Raw.isWhole, entriesAreWhole_of_spells hentries, Bool.and_true]

theorem areWhole_of_spells {text : List Char} {items : List Raw} (h : SpellsItems text items) :
    Raw.areWhole items = true := by
  match h with
  | .last _ hitem _ => rw [Raw.areWhole, isWhole_of_spells hitem, Raw.areWhole, Bool.and_true]
  | .more _ hitem _ hrest =>
    rw [Raw.areWhole, isWhole_of_spells hitem, areWhole_of_spells hrest, Bool.and_true]

theorem entriesAreWhole_of_spells {text : List Char} {entries : List (Raw × Raw)}
    (h : SpellsEntries text entries) : Raw.entriesAreWhole entries = true := by
  match h with
  | .last _ _ _ _ hitem _ =>
    rw [Raw.entriesAreWhole, isWhole_of_spells hitem]
    rfl
  | .more _ _ _ _ hitem _ hrest =>
    rw [Raw.entriesAreWhole, isWhole_of_spells hitem, entriesAreWhole_of_spells hrest]
    rfl

end

end Whole

end VtableMerge.Json
