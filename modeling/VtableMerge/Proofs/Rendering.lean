import Mathlib.Data.Nat.Digits.Defs
import VtableMerge.Json.Value
import VtableMerge.Proofs.JsonGrammar

/-!
What is written is JSON: in both layouts the text of a value belongs to the grammar and spells
the tree of the value, as long as its numbers are integers.
-/
namespace VtableMerge.Json

section Integers

theorem toNat_digitChar : ∀ d < 10, (Nat.digitChar d).toNat - '0'.toNat = d := by decide

/-- The decimal digits of a number, the highest one first. -/
structure AreDecimal (n : Nat) (ds : List Nat) : Prop where
  digits : AreDigits ds
  text : Nat.toDigits 10 n = digitsText ds
  value : Numeral.ofDigits ds = n
  lead : ds.head? = some 0 → ds = [0]

theorem exists_areDecimal (n : Nat) : ∃ ds, AreDecimal n ds := by
  induction n using Nat.strong_induction_on with
  | _ n ih =>
    by_cases hn : n < 10
    · refine ⟨[n], ⟨by simp, by simpa using hn⟩, Nat.toDigits_of_lt_base hn, ?_, ?_⟩
      · simp [Numeral.ofDigits]
      · simp
    · obtain ⟨ds, hds⟩ := ih (n / 10) (by omega)
      refine ⟨ds ++ [n % 10], ⟨by simp, ?_⟩, ?_, ?_, ?_⟩
      · intro d hd
        rcases List.mem_append.mp hd with hd | hd
        · exact hds.digits.decimal d hd
        · rw [List.mem_singleton.mp hd]
          omega
      · rw [Nat.toDigits_of_base_le (by omega) (by omega), hds.text, digitsText, digitsText,
          List.map_append, List.map_singleton]
      · have hvalue := hds.value
        rw [Numeral.ofDigits] at hvalue ⊢
        rw [List.foldl_append, hvalue, List.foldl_cons, List.foldl_nil]
        omega
      · -- The higher digits make up a number above zero.
        intro hlead
        have hhead : ds.head? = some 0 := by
          obtain ⟨d, rest, rfl⟩ := List.exists_cons_of_ne_nil hds.digits.some_digit
          exact hlead
        have hzero := hds.value
        rw [hds.lead hhead] at hzero
        change 0 = n / 10 at hzero
        omega

/-- The numeral of an integer has the digits of its magnitude. -/
theorem areDecimal_ofInt (n : Int) : AreDecimal n.natAbs (Numeral.ofInt n).whole := by
  obtain ⟨ds, hds⟩ := exists_areDecimal n.natAbs
  have hwhole : (Numeral.ofInt n).whole = ds := by
    rw [Numeral.ofInt, hds.text, digitsText, List.map_map]
    refine (List.map_congr_left fun d hd => ?_).trans (List.map_id ds)
    exact toNat_digitChar d (hds.digits.decimal d hd)
  rw [hwhole]
  exact hds

theorem toList_toString_int (n : Int) : (toString n).toList =
    (if (Numeral.ofInt n).isNegative then ['-'] else []) ++ Nat.toDigits 10 n.natAbs := by
  cases n with
  | ofNat n =>
    have hsign : (Numeral.ofInt (Int.ofNat n)).isNegative = false := by simp [Numeral.ofInt]
    have htext : toString (Int.ofNat n) = n.repr := rfl
    rw [hsign, htext, Nat.repr_eq_ofList_toDigits, String.toList_ofList]
    rfl
  | negSucc n =>
    have hsign : (Numeral.ofInt (Int.negSucc n)).isNegative = true := by
      simp [Numeral.ofInt, Int.negSucc_lt_zero]
    have htext : toString (Int.negSucc n) = "-" ++ (n + 1).repr := rfl
    rw [hsign, htext, Nat.repr_eq_ofList_toDigits]
    simp only [String.toList_append, String.toList_ofList]
    rfl

/-- An integer is written as its numeral. -/
theorem spellsNumeral_ofInt (n : Int) : SpellsNumeral (toString n).toList (Numeral.ofInt n) := by
  have hn := areDecimal_ofInt n
  rw [toList_toString_int, hn.text, ← List.append_nil (digitsText _), ← List.append_nil []]
  exact .mk hn.digits hn.lead .absent .absent

/-- The numeral of an integer of 64 bits, signed or unsigned, has its value. -/
theorem value?_ofInt {n : Int} (hlow : -(UInt64.size / 2 : Nat) ≤ n) (hhigh : n < UInt64.size) :
    (Numeral.ofInt n).value? = some (.int n) := by
  have hfraction : (Numeral.ofInt n).fraction = [] := rfl
  have hexponent : (Numeral.ofInt n).exponent = none := rfl
  have hnegative : (Numeral.ofInt n).isNegative = decide (n < 0) := rfl
  unfold Numeral.value?
  rw [hfraction, hexponent, hnegative, (areDecimal_ofInt n).value]
  generalize hmagnitude : n.natAbs = magnitude
  by_cases hn : n < 0
  · have hpos : 0 < magnitude := by omega
    have hle : magnitude ≤ UInt64.size / 2 := by omega
    have hback : -(magnitude : Int) = n := by omega
    simp [hn, hpos, hle, hback]
  · have hlt : magnitude < UInt64.size := by omega
    have hback : (magnitude : Int) = n := by omega
    simp [hn, hlt, hback]

end Integers

section Strings

theorem hexValue?_hexDigit : ∀ n < 16, Raw.hexValue? (some (hexDigit n)) = some n := by decide

/-- A control that has no letter is given by the number of its code unit. -/
theorem unit?_control {c : Char} (hc : c.toNat < 32) :
    Raw.unit? (some '0') (some '0') (some (hexDigit (c.toNat / 16)))
      (some (hexDigit (c.toNat % 16))) = some c.toNat := by
  have hzero : Raw.hexValue? (some '0') = some 0 := rfl
  have hsum : ((0 * 16 + 0) * 16 + c.toNat / 16) * 16 + c.toNat % 16 = c.toNat := by omega
  simp only [Raw.unit?, hzero, hexValue?_hexDigit _ (show c.toNat / 16 < 16 by omega),
    hexValue?_hexDigit _ (show c.toNat % 16 < 16 by omega), bind, Option.bind_some, hsum]
  rfl

theorem spellsContent_escape (c : Char) {text cs : List Char} (h : SpellsContent text cs) :
    SpellsContent (escape c ++ text) (c :: cs) := by
  unfold escape
  split_ifs with hquote hbackslash hletter hletter hletter hletter hletter hcontrol
  iterate 7
    · subst c
      exact .letter rfl h
  · have hcode := SpellsContent.unit (unit?_control hcontrol)
      (by simp [Raw.isHighSurrogate]; omega) (by simp [Raw.isLowSurrogate]; omega) h
    rwa [Char.ofNat_toNat] at hcode
  · refine .plain hquote hbackslash (fun hlt => hcontrol ?_) h
    rw [Char.lt_def, UInt32.lt_iff_toNat_lt] at hlt
    exact hlt

theorem spellsContent_flatMap_escape (cs : List Char) : SpellsContent (cs.flatMap escape) cs := by
  induction cs with
  | nil => exact .done
  | cons c cs ih => exact spellsContent_escape c ih

theorem spellsString_quote (s : String) : SpellsString (quote s) (some s) := by
  have h := SpellsString.whole (spellsContent_flatMap_escape s.toList)
  rwa [String.ofList_toList] at h

end Strings

namespace Value

/-- A value all of whose numbers are integers. -/
inductive Integral : Value → Prop
  | null : Integral .null
  | bool (b : Bool) : Integral (.bool b)
  | int (n : Int) : Integral (.number (.int n))
  | string (s : String) : Integral (.string s)
  | array {items : List Value} (hitems : ∀ v ∈ items, Integral v) : Integral (.array items)
  | object {fields : List (String × Value)} (hfields : ∀ e ∈ fields, Integral e.2) :
      Integral (.object fields)

mutual

/-- The tree of the text of a value. A floating-point number is given none. -/
def raw : Value → Raw
  | .null => .null
  | .bool b => .bool b
  | .number (.int n) => .number (Numeral.ofInt n)
  | .number (.float _) => .broken
  | .string s => .string (some s)
  | .array items => .array (rawItems items) true
  | .object fields => .object (rawFields fields) true

def rawItems : List Value → List Raw
  | [] => []
  | v :: vs => raw v :: rawItems vs

def rawFields : List (String × Value) → List (Raw × Raw)
  | [] => []
  | (key, v) :: rest => (.string (some key), raw v) :: rawFields rest

end

end Value

section Texts
variable {layout : Layout}

theorem blank_newline (layout : Layout) (depth : Nat) : Blank (layout.newline depth) := by
  intro c hc
  cases layout with
  | compact => cases hc
  | pretty =>
    rcases List.mem_cons.mp hc with rfl | hc
    · decide
    · rw [List.eq_of_mem_replicate hc]
      decide

/-- What stands behind the colon of a field. -/
theorem exists_colon (layout : Layout) : ∃ gap, layout.colon = ':' :: gap ∧ Blank gap := by
  cases layout with
  | compact => exact ⟨[], rfl, blank_nil⟩
  | pretty => exact ⟨[' '], rfl, by simp [Blank, blanks]⟩

theorem spellsItems_render {depth : Nat} {before behind : List Char} {v : Value} {vs : List Value}
    (hall : ∀ u ∈ v :: vs, Spells (render layout depth u) u.raw) (hbefore : Blank before)
    (hbehind : Blank behind) :
    SpellsItems (before ++ (render layout depth v ++
        (renderItems layout depth vs ++ (behind ++ [']']))))
      (Value.rawItems (v :: vs)) := by
  have hv := hall v List.mem_cons_self
  induction vs generalizing v before with
  | nil => exact .last hbefore hv hbehind
  | cons u us ih =>
    have hus : ∀ w ∈ u :: us, Spells (render layout depth w) w.raw :=
      fun w hw => hall w (List.mem_cons_of_mem v hw)
    have hrest := ih hus (blank_newline layout depth) (hus u List.mem_cons_self)
    have hmore := SpellsItems.more hbefore hv blank_nil hrest
    simpa only [renderItems, Value.rawItems, List.nil_append, List.cons_append,
      List.append_assoc] using hmore

theorem spellsEntries_render {depth : Nat} {before behind : List Char} {key : String} {v : Value}
    {fields : List (String × Value)}
    (hall : ∀ e ∈ (key, v) :: fields, Spells (render layout depth e.2) e.2.raw)
    (hbefore : Blank before) (hbehind : Blank behind) :
    SpellsEntries (before ++ (quote key ++ (layout.colon ++ (render layout depth v ++
        (renderFields layout depth fields ++ (behind ++ ['}']))))))
      (Value.rawFields ((key, v) :: fields)) := by
  have hv := hall (key, v) List.mem_cons_self
  obtain ⟨gap, hcolon, hgap⟩ := exists_colon layout
  induction fields generalizing key v before with
  | nil =>
    have hlast := SpellsEntries.last hbefore (spellsString_quote key) blank_nil hgap hv hbehind
    simpa only [hcolon, renderFields, Value.rawFields, List.nil_append, List.cons_append]
      using hlast
  | cons e fields ih =>
    have hfields : ∀ f ∈ e :: fields, Spells (render layout depth f.2) f.2.raw :=
      fun f hf => hall f (List.mem_cons_of_mem _ hf)
    have hrest := ih hfields (blank_newline layout depth) (hfields e List.mem_cons_self)
    have hmore := SpellsEntries.more hbefore (spellsString_quote key) blank_nil hgap hv blank_nil
      hrest
    simpa only [hcolon, renderFields, Value.rawFields, List.nil_append, List.cons_append,
      List.append_assoc] using hmore

/-- A text that is written spells the tree of its value. -/
theorem spells_render (layout : Layout) {v : Value} (h : v.Integral) (depth : Nat) :
    Spells (render layout depth v) v.raw := by
  induction h generalizing depth with
  | null => exact .null
  | bool b =>
    cases b with
    | true => exact .true
    | false => exact .false
  | int n => exact .number (spellsNumeral_ofInt n)
  | string s => exact .string (spellsString_quote s)
  | @array items _ ih =>
    cases items with
    | nil => exact .emptyArray blank_nil
    | cons v vs =>
      have hitems := spellsItems_render (fun u hu => ih u hu (depth + 1))
        (blank_newline layout (depth + 1)) (blank_newline layout depth)
      simpa only [render, Value.raw, List.cons_append, List.append_assoc] using Spells.array hitems
  | @object fields _ ih =>
    cases fields with
    | nil => exact .emptyObject blank_nil
    | cons e rest =>
      have hentries := spellsEntries_render (fun f hf => ih f hf (depth + 1))
        (blank_newline layout (depth + 1)) (blank_newline layout depth)
      simpa only [render, Value.raw, List.cons_append, List.append_assoc]
        using Spells.object hentries

end Texts

end VtableMerge.Json
