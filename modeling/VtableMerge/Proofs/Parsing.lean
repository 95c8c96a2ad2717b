import Mathlib.Data.List.DropRight
import VtableMerge.Proofs.JsonGrammar

/-!
The parser finds the tree of every text of the grammar, whatever follows the text, as long as it
does not lengthen a numeral. Two units of fuel for each character are enough.
-/
namespace VtableMerge.Json.Raw

open Utf8 (Symbol)

section Blanks

theorem isBlank_of_mem_blanks {c : Char} (hc : c ∈ blanks) : isBlank (some c) = true := by
  simp only [blanks, List.mem_cons, List.not_mem_nil, or_false] at hc
  rcases hc with rfl | rfl | rfl | rfl <;> rfl

theorem skipBlanks_append {gap : List Char} (hgap : Blank gap) (s : List Symbol) :
    skipBlanks (gap.map some ++ s) = skipBlanks s := by
  induction gap with
  | nil => rfl
  | cons c gap ih =>
    rw [List.map_cons, List.cons_append, skipBlanks, List.dropWhile_cons_of_pos
      (isBlank_of_mem_blanks (hgap c List.mem_cons_self))]
    exact ih fun d hd => hgap d (List.mem_cons_of_mem c hd)

theorem skipBlanks_cons {c : Char} (hc : isBlank (some c) = false) (s : List Symbol) :
    skipBlanks (some c :: s) = some c :: s :=
  List.dropWhile_cons_of_neg (by simp [hc])

end Blanks

section Numerals

def startsDigits (c : Char) : Bool := (digit? (some c)).isSome

def continuesNumeral (c : Char) : Bool := startsDigits c || c == '.' || c == 'e' || c == 'E'

def Stops (p : Char → Bool) (s : List Symbol) : Prop :=
  ∀ c rest, s = some c :: rest → p c = false

variable {p : Char → Bool} {rest : List Symbol}

theorem stops_nil : Stops p [] := fun _ _ h => by cases h

theorem stops_cons {c : Char} (hc : p c = false) : Stops p (some c :: rest) := by
  rintro d rest' h
  cases h
  exact hc

theorem Stops.startsDigits (hrest : Stops continuesNumeral rest) : Stops startsDigits rest := by
  intro c s hs
  have hc := hrest c s hs
  simp only [continuesNumeral, Bool.or_eq_false_iff] at hc
  exact hc.1.1.1

/-- Where no numeral goes on, none of its marks stands in front. -/
theorem Stops.ne (hrest : Stops continuesNumeral rest) {c : Char} (hc : continuesNumeral c = true)
    (s : List Symbol) : rest ≠ some c :: s := by
  intro hs
  rw [hrest c s hs] at hc
  cases hc

theorem digit?_digitChar : ∀ d < 10, digit? (some (Nat.digitChar d)) = some d := by decide

theorem digits_of_stops (hrest : Stops startsDigits rest) : digits rest = ([], rest) := by
  match rest, hrest with
  | [], _ => rfl
  | none :: s, _ => rfl
  | some c :: s, hrest =>
    have hc : digit? (some c) = none := by simpa [Raw.startsDigits] using hrest c s rfl
    rw [digits, hc]

theorem digits_digitsText {ds : List Nat} (hds : ∀ d ∈ ds, d < 10)
    (hrest : Stops startsDigits rest) : digits ((digitsText ds).map some ++ rest) = (ds, rest) := by
  induction ds with
  | nil => exact digits_of_stops hrest
  | cons d ds ih =>
    have hd := digit?_digitChar d (hds d List.mem_cons_self)
    have hrec := ih fun e he => hds e (List.mem_cons_of_mem d he)
    rw [digitsText] at hrec ⊢
    rw [List.map_cons, List.map_cons, List.cons_append, digits, hd, hrec]

theorem AreDigits.digits {ds : List Nat} (hds : AreDigits ds) (hrest : Stops startsDigits rest) :
    digits ((digitsText ds).map some ++ rest) = (ds, rest) ∧ ds.isEmpty = false :=
  ⟨digits_digitsText hds.decimal hrest, by simpa using hds.some_digit⟩

theorem fraction?_of_spells {text : List Char} {ds : List Nat} (h : SpellsFraction text ds)
    (hrest : Stops startsDigits rest) (hpoint : Stops (· == '.') rest) :
    fraction? (text.map some ++ rest) = some (ds, rest) := by
  cases h with
  | absent =>
    rw [List.map_nil, List.nil_append]
    unfold fraction?
    split
    · next s => exact absurd (hpoint '.' s rfl) (by decide)
    · rfl
  | present hds =>
    obtain ⟨hdigits, hsome⟩ := AreDigits.digits hds hrest
    rw [List.map_cons, List.cons_append, fraction?]
    simp only [hdigits, hsome]
    rfl

/-- Digits in front of a text hide every other character. -/
theorem AreDigits.ne {ds : List Nat} (hds : AreDigits ds) {c : Char}
    (hc : startsDigits c = false) (rest s : List Symbol) :
    (digitsText ds).map some ++ rest ≠ some c :: s := by
  obtain ⟨d, ds, rfl⟩ := List.exists_cons_of_ne_nil hds.some_digit
  intro h
  rw [digitsText, List.map_cons, List.map_cons, List.cons_append, List.cons.injEq,
    Option.some.injEq] at h
  have hd := digit?_digitChar d (hds.decimal d List.mem_cons_self)
  rw [h.1] at hd
  rw [Raw.startsDigits, hd] at hc
  cases hc

theorem exponentSign_of_spells {text : List Char} {isNegative : Bool} {ds : List Nat}
    (h : SpellsSign text isNegative) (hds : AreDigits ds) (rest : List Symbol) :
    exponentSign (text.map some ++ ((digitsText ds).map some ++ rest)) =
      (isNegative, (digitsText ds).map some ++ rest) := by
  cases h with
  | plus => rfl
  | minus => rfl
  | none =>
    rw [List.map_nil, List.nil_append]
    unfold exponentSign
    split
    · next s hs => exact absurd hs (AreDigits.ne hds rfl rest s)
    · next s hs => exact absurd hs (AreDigits.ne hds rfl rest s)
    · rfl

theorem exponent?_of_spells {text : List Char} {exponent : Option Exponent}
    (h : SpellsExponent text exponent) (hrest : Stops continuesNumeral rest) :
    exponent? (text.map some ++ rest) = some (exponent, rest) := by
  cases h with
  | absent =>
    rw [List.map_nil, List.nil_append]
    unfold exponent?
    split
    · next s => exact absurd rfl (hrest.ne rfl s)
    · next s => exact absurd rfl (hrest.ne rfl s)
    · rfl
  | @present mark sign isNegative ds hmark hsign hds =>
    have hread : exponentDigits? ((sign ++ digitsText ds).map some ++ rest) =
        some (some ⟨isNegative, ds⟩, rest) := by
      obtain ⟨hdigits, hsome⟩ := AreDigits.digits hds hrest.startsDigits
      rw [List.map_append, List.append_assoc, exponentDigits?, exponentSign_of_spells hsign hds]
      simp only [hdigits, hsome]
      rfl
    rw [List.map_cons, List.cons_append]
    rcases hmark with rfl | rfl <;> exact hread

/-- The mark of an exponent ends what stands before it. -/
theorem stops_exponent {text : List Char} {exponent : Option Exponent}
    (h : SpellsExponent text exponent) (hlower : p 'e' = false) (hupper : p 'E' = false)
    (hrest : Stops p rest) : Stops p (text.map some ++ rest) := by
  cases h with
  | absent => exact hrest
  | present hmark =>
    rcases hmark with rfl | rfl
    · exact stops_cons hlower
    · exact stops_cons hupper

theorem numeral?_of_spells {text : List Char} {n : Numeral} (h : SpellsNumeral text n)
    (hrest : Stops continuesNumeral rest) :
    numeral? (text.map some ++ rest) = some (n, rest) := by
  obtain @⟨isNegative, whole, fraction, exponent, fractionText, exponentText, hwhole, hzero,
    hfraction, hexponent⟩ := h
  have hbehind : Stops startsDigits (exponentText.map some ++ rest) :=
    stops_exponent hexponent rfl rfl hrest.startsDigits
  have hpoint : Stops (· == '.') (exponentText.map some ++ rest) :=
    stops_exponent hexponent rfl rfl fun c s hs => by
      simpa using fun hc : c = '.' => hrest.ne (c := '.') rfl s (hc ▸ hs)
  have hstops : Stops startsDigits
      (fractionText.map some ++ (exponentText.map some ++ rest)) := by
    cases hfraction with
    | absent => exact hbehind
    | present => exact stops_cons rfl
  obtain ⟨hdigits, hsome⟩ := AreDigits.digits hwhole hstops
  have hfraction? := fraction?_of_spells hfraction hbehind hpoint
  have hexponent? := exponent?_of_spells hexponent hrest
  have hlead : (whole.head? == some 0 && decide (1 < whole.length)) = false := by
    rw [Bool.and_eq_false_iff]
    by_cases hhead : whole.head? = some 0
    · exact .inr (by simp [hzero hhead])
    · exact .inl (by simpa using hhead)
  simp only [List.map_append, List.append_assoc]
  cases isNegative with
  | true => simp [numeral?, hdigits, hsome, hlead, hfraction?, hexponent?]
  | false =>
    unfold numeral?
    split
    next isNegative s hsign =>
    split at hsign
    · next s hs => exact absurd hs (AreDigits.ne hwhole rfl _ s)
    · cases hsign
      simp [hdigits, hsome, hlead, hfraction?, hexponent?]

end Numerals

section Strings

/-- A code unit that is no surrogate stands for itself, whatever follows it. -/
theorem content?_unit {n : Nat} (hhigh : isHighSurrogate n = false)
    (hlow : isLowSurrogate n = false) (ps : List Piece) :
    content? (.unit n :: ps) = (content? ps).map (Char.ofNat n :: ·) := by
  match ps with
  | [] => simp [content?, hhigh, hlow]
  | .char c :: ps => simp [content?, hhigh, hlow]
  | .unit m :: ps => simp [content?, hhigh, hlow]
  | .hole :: ps => simp [content?, hhigh, hlow]

/-- The pieces of a string are read up to its closing quote. -/
theorem pieces?_of_spells {text : List Char} {ps : List Piece} (h : SpellsPieces text ps)
    (read : List Piece) (rest : List Symbol) :
    pieces? read (text.map some ++ some '"' :: rest) = some (read.reverse ++ ps, rest) := by
  induction h generalizing read with
  | done => simp [pieces?]
  | plain hquote hbackslash hcontrol _ ih => simp [pieces?, hbackslash, hcontrol, ih]
  | @letter letter c text ps hletter _ ih =>
    have hne : letter ≠ 'u' := by
      rintro rfl
      cases hletter
    simp [pieces?, hne, hletter, ih]
  | unit hunit _ ih => simp [pieces?, hunit, ih]

/-- The pieces of a text make up its content. -/
theorem exists_pieces {text cs : List Char} (h : SpellsContent text cs) :
    ∃ ps, SpellsPieces text ps ∧ content? ps = some cs := by
  induction h with
  | done => exact ⟨[], .done, rfl⟩
  | @plain c text cs hquote hbackslash hcontrol _ ih =>
    obtain ⟨ps, hpieces, hcontent⟩ := ih
    exact ⟨.char c :: ps, .plain hquote hbackslash hcontrol hpieces, by simp [content?, hcontent]⟩
  | @letter letter c text cs hletter _ ih =>
    obtain ⟨ps, hpieces, hcontent⟩ := ih
    exact ⟨.char c :: ps, .letter hletter hpieces, by simp [content?, hcontent]⟩
  | @unit x y z w n text cs hunit hhigh hlow _ ih =>
    obtain ⟨ps, hpieces, hcontent⟩ := ih
    exact ⟨.unit n :: ps, .unit hunit hpieces, by simp [content?_unit hhigh hlow, hcontent]⟩
  | @pair x y z w x' y' z' w' n m text cs hfirst hsecond hhigh hlow _ ih =>
    obtain ⟨ps, hpieces, hcontent⟩ := ih
    refine ⟨.unit n :: .unit m :: ps, .unit hfirst (.unit hsecond hpieces), ?_⟩
    simp [content?, hhigh, hlow, hcontent]

/-- A string is read up to its closing quote. -/
theorem exists_pieces?_of_spellsString {text : List Char} {content : Option String}
    (h : SpellsString text content) (rest : List Symbol) : ∃ inner ps, text = '"' :: inner ∧
      pieces? [] (inner.map some ++ rest) = some (ps, rest) ∧
      (content? ps).map String.ofList = content := by
  obtain ⟨inner, ps, hpieces, htext, hcontent⟩ : ∃ inner ps, SpellsPieces inner ps ∧
      text = '"' :: (inner ++ ['"']) ∧ (content? ps).map String.ofList = content := by
    cases h with
    | @whole inner cs h =>
      obtain ⟨ps, hpieces, hcontent⟩ := exists_pieces h
      exact ⟨inner, ps, hpieces, rfl, by rw [hcontent, Option.map_some]⟩
    | @torn inner ps hpieces htorn =>
      exact ⟨inner, ps, hpieces, rfl, by rw [htorn, Option.map_none]⟩
  refine ⟨inner ++ ['"'], ps, htext, ?_, hcontent⟩
  simpa using pieces?_of_spells hpieces [] rest

/-- A string starts with its opening quote. -/
theorem exists_quote_of_spellsString {text : List Char} {content : Option String}
    (h : SpellsString text content) : ∃ inner, text = '"' :: inner := by
  obtain ⟨inner, -, htext, -⟩ := exists_pieces?_of_spellsString h []
  exact ⟨inner, htext⟩

end Strings

section Values

theorem skipBlanks_skipBlanks (s : List Symbol) : skipBlanks (skipBlanks s) = skipBlanks s :=
  List.dropWhile_idempotent isBlank s

theorem parseValue_skipBlanks (fuel : Nat) (s : List Symbol) :
    parseValue fuel (skipBlanks s) = parseValue fuel s := by
  cases fuel with
  | zero => rfl
  | succ fuel => simp only [parseValue, skipBlanks_skipBlanks]

theorem parseItems_skipBlanks (fuel : Nat) (s : List Symbol) :
    parseItems fuel (skipBlanks s) = parseItems fuel s := by
  cases fuel with
  | zero => rfl
  | succ fuel => simp only [parseItems, parseValue_skipBlanks]

theorem parseEntries_skipBlanks (fuel : Nat) (s : List Symbol) :
    parseEntries fuel (skipBlanks s) = parseEntries fuel s := by
  cases fuel with
  | zero => rfl
  | succ fuel => simp only [parseEntries, parseValue_skipBlanks]

theorem parseValue_append {before : List Char} (hbefore : Blank before) (fuel : Nat)
    (s : List Symbol) : parseValue fuel (before.map some ++ s) = parseValue fuel s := by
  rw [← parseValue_skipBlanks, skipBlanks_append hbefore, parseValue_skipBlanks]

def startsNumeral (c : Char) : Bool := c == '-' || startsDigits c

theorem isBlank_of_startsNumeral {c : Char} (hc : startsNumeral c = true) :
    isBlank (some c) = false := by
  by_contra hblank
  simp only [isBlank, Bool.not_eq_false, Bool.or_eq_true, beq_iff_eq] at hblank
  rcases hblank with ((rfl | rfl) | rfl) | rfl <;> cases hc

theorem exists_head_of_spellsNumeral {text : List Char} {n : Numeral} (h : SpellsNumeral text n) :
    ∃ c inner, text = c :: inner ∧ startsNumeral c = true := by
  obtain @⟨isNegative, whole, fraction, exponent, fractionText, exponentText, hwhole, -, -, -⟩ := h
  obtain ⟨d, ds, rfl⟩ := List.exists_cons_of_ne_nil hwhole.some_digit
  cases isNegative with
  | true => exact ⟨'-', _, rfl, rfl⟩
  | false =>
    refine ⟨d.digitChar, _, rfl, ?_⟩
    rw [startsNumeral, startsDigits, digit?_digitChar d (hwhole.decimal d List.mem_cons_self)]
    exact Bool.or_true _

/-- Only numerals start with a sign or a digit. -/
theorem parseValue_of_startsNumeral {c : Char} (hc : startsNumeral c = true) {fuel : Nat}
    {s rest : List Symbol} {n : Numeral} (hn : numeral? (some c :: s) = some (n, rest)) :
    parseValue (fuel + 1) (some c :: s) = (.number n, rest) := by
  simp only [parseValue, skipBlanks_cons (isBlank_of_startsNumeral hc)]
  split
  case h_7 => rw [hn]
  all_goals
    next h =>
    cases h
    cases hc

/-- A string in front of a text. -/
theorem parseValue_of_spellsString {text : List Char} {content : Option String}
    (h : SpellsString text content) (rest : List Symbol) (fuel : Nat) :
    parseValue (fuel + 1) (text.map some ++ rest) = (.string content, rest) := by
  obtain ⟨inner, ps, rfl, hpieces, hcontent⟩ := exists_pieces?_of_spellsString h rest
  have hskip : skipBlanks (('"' :: inner).map some ++ rest) =
      some '"' :: (inner.map some ++ rest) := skipBlanks_cons rfl _
  simp only [parseValue, hskip, hpieces, hcontent]

/-- A value starts with a character that is neither a blank nor a closing bracket. -/
theorem exists_head_of_spells {text : List Char} {raw : Raw} (h : Spells text raw) :
    ∃ c inner, text = c :: inner ∧ isBlank (some c) = false ∧ c ≠ ']' := by
  cases h with
  | number hn =>
    obtain ⟨c, inner, rfl, hc⟩ := exists_head_of_spellsNumeral hn
    refine ⟨c, inner, rfl, isBlank_of_startsNumeral hc, ?_⟩
    rintro rfl
    cases hc
  | string hs =>
    obtain ⟨inner, rfl⟩ := exists_quote_of_spellsString hs
    exact ⟨'"', inner, rfl, rfl, by decide⟩
  | _ => exact ⟨_, _, rfl, rfl, by decide⟩

theorem not_continuesNumeral {c : Char} (hc : c ∈ blanks) : continuesNumeral c = false := by
  simp only [blanks, List.mem_cons, List.not_mem_nil, or_false] at hc
  rcases hc with rfl | rfl | rfl | rfl <;> rfl

/-- Blanks and what stands between values end every numeral. -/
theorem stops_blank {gap : List Char} (hgap : Blank gap) {c : Char}
    (hc : continuesNumeral c = false) (s : List Symbol) :
    Stops continuesNumeral (gap.map some ++ some c :: s) := by
  cases gap with
  | nil => exact stops_cons hc
  | cons b gap => exact stops_cons (not_continuesNumeral (hgap b List.mem_cons_self))

theorem skipBlanks_gap {gap : List Char} (hgap : Blank gap) {c : Char}
    (hc : isBlank (some c) = false) (s : List Symbol) :
    skipBlanks (gap.map some ++ some c :: s) = some c :: s := by
  rw [skipBlanks_append hgap, skipBlanks_cons hc]

/-- The first item of an array does not close it. -/
theorem exists_head_of_spellsItems {text : List Char} {items : List Raw}
    (h : SpellsItems text items) (rest : List Symbol) :
    ∃ c inner, skipBlanks (text.map some ++ rest) = some c :: inner ∧ c ≠ ']' := by
  cases h with
  | last hbefore hitem hbehind =>
    obtain ⟨c, inner, rfl, hblank, hc⟩ := exists_head_of_spells hitem
    simp only [List.map_append, List.map_cons, List.append_assoc, List.cons_append]
    exact ⟨c, _, skipBlanks_gap hbefore hblank _, hc⟩
  | more hbefore hitem hbehind hrest =>
    obtain ⟨c, inner, rfl, hblank, hc⟩ := exists_head_of_spells hitem
    simp only [List.map_append, List.map_cons, List.append_assoc, List.cons_append]
    exact ⟨c, _, skipBlanks_gap hbefore hblank _, hc⟩

/-- The first key of an object stands in front. -/
theorem exists_head_of_spellsEntries {text : List Char} {entries : List (Raw × Raw)}
    (h : SpellsEntries text entries) (rest : List Symbol) :
    ∃ inner, skipBlanks (text.map some ++ rest) = some '"' :: inner := by
  cases h with
  | last hbefore hkey =>
    obtain ⟨inner, rfl⟩ := exists_quote_of_spellsString hkey
    simp only [List.map_append, List.map_cons, List.append_assoc, List.cons_append]
    exact ⟨_, skipBlanks_gap hbefore rfl _⟩
  | more hbefore hkey =>
    obtain ⟨inner, rfl⟩ := exists_quote_of_spellsString hkey
    simp only [List.map_append, List.map_cons, List.append_assoc, List.cons_append]
    exact ⟨_, skipBlanks_gap hbefore rfl _⟩

theorem parseValue_array {text : List Char} {items : List Raw} (h : SpellsItems text items)
    {rest : List Symbol} {fuel : Nat}
    (hitems : parseItems fuel (text.map some ++ rest) = (items, true, rest)) :
    parseValue (fuel + 1) (some '[' :: (text.map some ++ rest)) = (.array items true, rest) := by
  obtain ⟨c, inner, hhead, hc⟩ := exists_head_of_spellsItems h rest
  rw [← parseItems_skipBlanks, hhead] at hitems
  simp only [parseValue, skipBlanks_cons (c := '[') rfl, hhead]
  split
  · next hclose =>
    cases hclose
    exact absurd rfl hc
  · rw [hitems]

theorem parseValue_object {text : List Char} {entries : List (Raw × Raw)}
    (h : SpellsEntries text entries) {rest : List Symbol} {fuel : Nat}
    (hentries : parseEntries fuel (text.map some ++ rest) = (entries, true, rest)) :
    parseValue (fuel + 1) (some '{' :: (text.map some ++ rest)) = (.object entries true, rest) := by
  obtain ⟨inner, hhead⟩ := exists_head_of_spellsEntries h rest
  rw [← parseEntries_skipBlanks, hhead] at hentries
  simp only [parseValue, skipBlanks_cons (c := '{') rfl, hhead]
  split
  · next hclose => cases hclose
  · rw [hentries]

mutual

theorem parseValue_of_spells {text : List Char} {raw : Raw} (h : Spells text raw)
    {rest : List Symbol} (hrest : Stops continuesNumeral rest) (fuel : Nat)
    (hfuel : 2 * text.length ≤ fuel + 1) :
    parseValue (fuel + 1) (text.map some ++ rest) = (raw, rest) := by
  match h with
  | .null => rfl
  | .true => rfl
  | .false => rfl
  | .number hn =>
    obtain ⟨c, inner, rfl, hc⟩ := exists_head_of_spellsNumeral hn
    exact parseValue_of_startsNumeral hc (numeral?_of_spells hn hrest)
  | .string hs => exact parseValue_of_spellsString hs rest fuel
  | @Spells.emptyArray gap hgap =>
    have hclose : skipBlanks ((gap ++ [']']).map some ++ rest) = some ']' :: rest := by
      rw [List.map_append, List.append_assoc]
      exact skipBlanks_gap hgap rfl rest
    simp only [List.map_cons, List.cons_append, parseValue, skipBlanks_cons (c := '[') rfl, hclose]
  | @Spells.array text items hitems =>
    rw [List.length_cons] at hfuel
    exact parseValue_array hitems (parseItems_of_spells hitems rest fuel (by omega))
  | @Spells.emptyObject gap hgap =>
    have hclose : skipBlanks ((gap ++ ['}']).map some ++ rest) = some '}' :: rest := by
      rw [List.map_append, List.append_assoc]
      exact skipBlanks_gap hgap rfl rest
    simp only [List.map_cons, List.cons_append, parseValue, skipBlanks_cons (c := '{') rfl, hclose]
  | @Spells.object text entries hentries =>
    rw [List.length_cons] at hfuel
    exact parseValue_object hentries (parseEntries_of_spells hentries rest fuel (by omega))

theorem parseItems_of_spells {text : List Char} {items : List Raw} (h : SpellsItems text items)
    (rest : List Symbol) (fuel : Nat) (hfuel : 2 * text.length ≤ fuel) :
    parseItems fuel (text.map some ++ rest) = (items, true, rest) := by
  match h with
  | @SpellsItems.last before text behind item hbefore hitem hbehind =>
    simp only [List.length_append, List.length_singleton] at hfuel
    obtain ⟨fuel, rfl⟩ : ∃ k, fuel = k + 2 := ⟨fuel - 2, by omega⟩
    have hread := parseValue_of_spells hitem (stops_blank hbehind (c := ']') rfl rest)
      fuel (by omega)
    simp only [List.map_append, List.append_assoc, List.map_cons, List.map_nil,
      List.singleton_append]
    rw [parseItems, parseValue_append hbefore, hread]
    simp only [skipBlanks_gap hbehind (c := ']') rfl]
  | @SpellsItems.more before text behind more item items hbefore hitem hbehind hmore =>
    simp only [List.length_append, List.length_cons] at hfuel
    obtain ⟨fuel, rfl⟩ : ∃ k, fuel = k + 2 := ⟨fuel - 2, by omega⟩
    have hread := parseValue_of_spells hitem
      (stops_blank hbehind (c := ',') rfl (more.map some ++ rest)) fuel (by omega)
    have hrec := parseItems_of_spells hmore rest (fuel + 1) (by omega)
    simp only [List.map_append, List.append_assoc, List.map_cons, List.cons_append]
    rw [parseItems, parseValue_append hbefore, hread]
    simp only [skipBlanks_gap hbehind (c := ',') rfl, hrec]

theorem parseEntries_of_spells {text : List Char} {entries : List (Raw × Raw)}
    (h : SpellsEntries text entries) (rest : List Symbol) (fuel : Nat)
    (hfuel : 2 * text.length ≤ fuel) :
    parseEntries fuel (text.map some ++ rest) = (entries, true, rest) := by
  match h with
  | @SpellsEntries.last before keyText gap before' text behind key item hbefore hkey hgap hbefore'
      hitem hbehind =>
    simp only [List.length_append, List.length_cons] at hfuel
    obtain ⟨fuel, rfl⟩ : ∃ k, fuel = k + 2 := ⟨fuel - 2, by omega⟩
    have hread := parseValue_of_spells hitem (stops_blank hbehind (c := '}') rfl rest)
      fuel (by omega)
    simp only [List.map_append, List.append_assoc, List.map_cons, List.map_nil, List.cons_append,
      List.nil_append]
    rw [parseEntries, parseValue_append hbefore, parseValue_of_spellsString hkey]
    simp only [skipBlanks_gap hgap (c := ':') rfl, parseValue_append hbefore', hread,
      skipBlanks_gap hbehind (c := '}') rfl]
  | @SpellsEntries.more before keyText gap before' text behind more key item entries hbefore hkey
      hgap hbefore' hitem hbehind hmore =>
    simp only [List.length_append, List.length_cons] at hfuel
    obtain ⟨fuel, rfl⟩ : ∃ k, fuel = k + 2 := ⟨fuel - 2, by omega⟩
    have hread := parseValue_of_spells hitem
      (stops_blank hbehind (c := ',') rfl (more.map some ++ rest)) fuel (by omega)
    have hrec := parseEntries_of_spells hmore rest (fuel + 1) (by omega)
    simp only [List.map_append, List.append_assoc, List.map_cons, List.cons_append]
    rw [parseEntries, parseValue_append hbefore, parseValue_of_spellsString hkey]
    simp only [skipBlanks_gap hgap (c := ':') rfl, parseValue_append hbefore', hread,
      skipBlanks_gap hbehind (c := ',') rfl, hrec]

end

end Values

/-- A text of the grammar with blanks around it is read as its tree. -/
theorem parse_of_spells {before text behind : List Char} {raw : Raw} (hbefore : Blank before)
    (h : Spells text raw) (hbehind : Blank behind) :
    parse ((before ++ (text ++ behind)).map some) = ⟨raw, true⟩ := by
  have hstops : Stops continuesNumeral (behind.map some) := by
    cases behind with
    | nil => exact stops_nil
    | cons c behind => exact stops_cons (not_continuesNumeral (hbehind c List.mem_cons_self))
  have hread := parseValue_of_spells h hstops
    (2 * ((before ++ (text ++ behind)).map some).length + 1) (by simp; omega)
  have hended : skipBlanks (behind.map some) = [] := by
    rw [← List.append_nil (behind.map some), skipBlanks_append hbehind]
    rfl
  rw [← parseValue_append hbefore, ← List.map_append, ← List.map_append] at hread
  rw [parse, hread]
  simp only [hended, List.isEmpty_nil]

end VtableMerge.Json.Raw
