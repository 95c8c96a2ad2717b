import Mathlib.Data.List.DropRight
import VtableMerge.Proofs.Confluence
import VtableMerge.Proofs.TablePasses

/-!
The symbols made up for prototypes without a name. A symbol ends in the digits of a slot, with a
mark before them that ends in no digit, so the slot and the class can be read off it, whatever the
class is called. A class declares a slot once, so the symbols of a merge differ.
-/
namespace VtableMerge

/-- What stands between the class and the slot in a made-up symbol. -/
def placeholderMark : List Char := "::vmethod".toList

def placeholderSymbol (className : String) (slotIndex : Nat) : String :=
  className ++ "::" ++ placeholderName slotIndex

/-- The class and the slot of a symbol: the digits at its end are the slot, and the class stands
before the mark. -/
def placeholderOrigin (symbol : String) : String × Nat :=
  (String.ofList ((symbol.toList.rdropWhile Char.isDigit).rdrop placeholderMark.length),
    Nat.ofDigitChars 10 (symbol.toList.rtakeWhile Char.isDigit) 0)

theorem toList_placeholderSymbol (className : String) (slotIndex : Nat) :
    (placeholderSymbol className slotIndex).toList =
      (className.toList ++ placeholderMark) ++ Nat.toDigits 10 slotIndex := by
  simp only [placeholderSymbol, placeholderName, Nat.toString_eq_ofList_toDigits,
    String.toList_append, String.toList_ofList, List.append_assoc]
  rfl

section Ends
variable {α : Type} {p : α → Bool} {front back : List α} {a : α}

/-- What satisfies a test is taken from the end up to the first entry that does not. -/
theorem rtakeWhile_append (hback : ∀ b ∈ back, p b = true) (ha : p a = false) :
    (front ++ [a] ++ back).rtakeWhile p = back := by
  have hstop : (a :: front.reverse).takeWhile p = [] := by simp [ha]
  rw [List.rtakeWhile, List.reverse_append,
    List.takeWhile_append_of_pos (fun b hb => hback b (List.mem_reverse.mp hb)),
    List.reverse_concat, hstop, List.append_nil, List.reverse_reverse]

theorem rdropWhile_append (hback : ∀ b ∈ back, p b = true) (ha : p a = false) :
    (front ++ [a] ++ back).rdropWhile p = front ++ [a] := by
  have hstop : (a :: front.reverse).dropWhile p = a :: front.reverse := by simp [ha]
  rw [List.rdropWhile, List.reverse_append,
    List.dropWhile_append_of_pos (fun b hb => hback b (List.mem_reverse.mp hb)),
    List.reverse_concat, hstop, List.reverse_cons, List.reverse_reverse]

end Ends

/-- A symbol tells where its prototype was declared. -/
theorem placeholderOrigin_placeholderSymbol (className : String) (slotIndex : Nat) :
    placeholderOrigin (placeholderSymbol className slotIndex) = (className, slotIndex) := by
  have hdigits : ∀ c ∈ Nat.toDigits 10 slotIndex, c.isDigit = true := fun c hc =>
    Nat.isDigit_of_mem_toDigits (by decide) (by decide) hc
  have hlast : className.toList ++ placeholderMark =
      className.toList ++ "::vmetho".toList ++ ['d'] := by
    rw [List.append_assoc]
    rfl
  have htake : (placeholderSymbol className slotIndex).toList.rtakeWhile Char.isDigit =
      Nat.toDigits 10 slotIndex := by
    rw [toList_placeholderSymbol, hlast]
    exact rtakeWhile_append hdigits rfl
  have hdrop : (placeholderSymbol className slotIndex).toList.rdropWhile Char.isDigit =
      className.toList ++ placeholderMark := by
    rw [toList_placeholderSymbol, hlast]
    exact rdropWhile_append hdigits rfl
  have hclass : (className.toList ++ placeholderMark).rdrop placeholderMark.length =
      className.toList := by
    rw [List.rdrop, List.length_append, Nat.add_sub_cancel, List.take_left]
  rw [placeholderOrigin, htake, hdrop, hclass, Nat.ofDigitChars_ten_toDigits,
    String.ofList_toList]

/-- The symbols that the nameless prototypes of a table get tell these prototypes apart. -/
structure PrototypeTable.SymbolsTell (table : PrototypeTable) : Prop where
  told : ∀ (k : Nat) (p : Prototype), table.prototypes[k]? = some p → p.isNamed = false →
    ∃ q, table.synthesizePlaceholders.1.prototypes[k]? = some q ∧
      q.mangledName = placeholderSymbol p.declaringClass p.slotIndex ∧
      placeholderOrigin q.mangledName = (p.declaringClass, p.slotIndex) ∧
      table.findDeclared? p.declaringClass p.slotIndex = some p
  distinct : ∀ (k l : Nat) (p q p' q' : Prototype), k ≠ l →
    table.prototypes[k]? = some p → p.isNamed = false →
    table.prototypes[l]? = some q → q.isNamed = false →
    table.synthesizePlaceholders.1.prototypes[k]? = some p' →
    table.synthesizePlaceholders.1.prototypes[l]? = some q' → p'.mangledName ≠ q'.mangledName

theorem PrototypeTable.exists_symbol {table : PrototypeTable} {k : Nat} {p : Prototype}
    (hp : table.prototypes[k]? = some p) (hnameless : p.isNamed = false) :
    ∃ q, table.synthesizePlaceholders.1.prototypes[k]? = some q ∧
      q.mangledName = placeholderSymbol p.declaringClass p.slotIndex := by
  obtain ⟨q, hrule⟩ : ∃ q, p.withPlaceholderName? = some q :=
    ⟨_, Prototype.withPlaceholderName?_eq_some_iff.mpr ⟨hnameless, rfl⟩⟩
  refine ⟨q, by simp [synthesizePlaceholders, revise, hp, hrule], ?_⟩
  rw [(Prototype.withPlaceholderName?_eq_some_iff.mp hrule).2]
  rfl

namespace Merge
variable {h : Hierarchy} {store : ObservationStore} {s : State}

/-- A class declares a slot once. -/
theorem Coherent.symbolsTell (hs : Coherent h store s) : s.table.SymbolsTell where
  told k p hp hnameless := by
    obtain ⟨q, hq, hsymbol⟩ := PrototypeTable.exists_symbol hp hnameless
    refine ⟨q, hq, hsymbol, ?_, ?_⟩
    · rw [hsymbol, placeholderOrigin_placeholderSymbol]
    · exact (findDeclared?_eq_some_iff hs).mpr ⟨List.mem_of_getElem? hp, rfl, rfl⟩
  distinct k l p q p' q' hne hp hpname hq hqname hp' hq' := by
    obtain ⟨p'', hp'', hpsymbol⟩ := PrototypeTable.exists_symbol hp hpname
    obtain ⟨q'', hq'', hqsymbol⟩ := PrototypeTable.exists_symbol hq hqname
    obtain rfl := Option.some.inj (hp'.symm.trans hp'')
    obtain rfl := Option.some.inj (hq'.symm.trans hq'')
    intro hsame
    -- Equal symbols have one class and one slot, which is one prototype.
    have horigin : (p.declaringClass, p.slotIndex) = (q.declaringClass, q.slotIndex) := by
      rw [← placeholderOrigin_placeholderSymbol, ← hpsymbol, hsame, hqsymbol,
        placeholderOrigin_placeholderSymbol]
    obtain ⟨hclass, hslot⟩ := Prod.mk.inj horigin
    have hfound := (findDeclared?_eq_some_iff hs).mpr ⟨List.mem_of_getElem? hp, hclass, hslot⟩
    have hfound' := (findDeclared?_eq_some_iff hs).mpr ⟨List.mem_of_getElem? hq, rfl, rfl⟩
    obtain rfl := Option.some.inj (hfound.symm.trans hfound')
    exact hne ((hs.id_index_eq hp).symm.trans (hs.id_index_eq hq))

/-- Whatever the classes are called and however many slots they have, the symbols made up after a
merge are distinct, and each tells the class and the slot of its prototype. -/
theorem symbolsTell_finish (h : Hierarchy) (store : ObservationStore) (names : List String)
    (hbound : (resolveAll h store names).table.size < 2 ^ 32) :
    (finish h (resolveAll h store names)).prototypes.SymbolsTell :=
  (coherent_of_leads (leads_resolveAll names) hbound).symbolsTell

/-- Names that look like made-up symbols, or end in digits. -/
def misleadingHierarchy : Hierarchy :=
  { nodes :=
      [⟨"Card::vmethod1", some "Card", false, none⟩, ⟨"Card", none, true, none⟩,
        ⟨"Card::vmethod", none, true, none⟩]
    distinct := by decide }

def misleadingStore : ObservationStore :=
  ⟨[("Card", ⟨"a", [.pureVirtual 0, .pureVirtual 1]⟩),
    ("Card::vmethod1", ⟨"a", [.concrete 0 "deal", .pureVirtual 1, .pureVirtual 2]⟩),
    ("Card::vmethod", ⟨"b", [.pureVirtual 0, .pureVirtual 1]⟩)]⟩

theorem symbolsTell_finish_sample :
    (resolveAll misleadingHierarchy misleadingStore
        ["Card::vmethod1", "Card::vmethod"]).table.size < 2 ^ 32 ∧
      (finish misleadingHierarchy (resolveAll misleadingHierarchy misleadingStore
          ["Card::vmethod1", "Card::vmethod"])).prototypes.SymbolsTell ∧
      (finish misleadingHierarchy (resolveAll misleadingHierarchy misleadingStore
          ["Card::vmethod1", "Card::vmethod"])).prototypes.synthesizePlaceholders.1.prototypes.map
        (fun p => p.mangledName) =
        ["", "Card::vmethod1", "Card::vmethod1::vmethod2", "Card::vmethod::vmethod0",
          "Card::vmethod::vmethod1"] :=
  ⟨by decide, symbolsTell_finish _ _ _ (by decide), by decide +kernel⟩

end Merge

end VtableMerge
