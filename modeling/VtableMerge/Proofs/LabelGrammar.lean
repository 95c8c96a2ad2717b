import Mathlib.Computability.RegularExpressions
import VtableMerge.Observation

/-!
The grammar of labels. A label is spelt with any number of jump marks, one routine mark and at
least one hexadecimal digit, and nothing stands before, between or behind them. The same texts are
matched, from end to end, by a regular expression. Jump marks are dropped greedily, which is right
because no routine mark and no address begins with one.
-/
namespace VtableMerge.Label

def hexDigits : List Char := "0123456789ABCDEFabcdef".toList

def jumpMark : List Char := "j_".toList

/-- A name is a label: jump marks, a routine mark and digits make up the whole of it. -/
def IsLabel (name : String) : Prop :=
  ∃ (jumps : Nat) (routine address : List Char),
    (routine = "sub_".toList ∨ routine = "nullsub_".toList) ∧
    address ≠ [] ∧ (∀ c ∈ address, c ∈ hexDigits) ∧
    name.toList = (List.replicate jumps jumpMark).flatten ++ routine ++ address

section Recogniser
variable {cs : List Char} {c : Char}

/-- The digits are three ranges of code points. -/
theorem map_toNat_hexDigits : hexDigits.map Char.toNat =
    List.range' 48 10 ++ List.range' 65 6 ++ List.range' 97 6 := by decide

theorem isHexDigit_iff_mem : isHexDigit c = true ↔ c ∈ hexDigits := by
  have hcode : c ∈ hexDigits ↔ c.toNat ∈ hexDigits.map Char.toNat :=
    (List.mem_map_of_injective fun a b hab => Char.toNat_inj.mp hab).symm
  rw [hcode, map_toNat_hexDigits]
  simp only [isHexDigit, Bool.or_eq_true, Bool.and_eq_true, decide_eq_true_eq, Char.le_def,
    UInt32.le_iff_toNat_le, List.mem_append, List.mem_range'_1]
  change (48 ≤ c.toNat ∧ c.toNat ≤ 57 ∨ 65 ≤ c.toNat ∧ c.toNat ≤ 70) ∨
    97 ≤ c.toNat ∧ c.toNat ≤ 102 ↔ _
  omega

theorem isAddress_iff : isAddress cs = true ↔ cs ≠ [] ∧ ∀ c ∈ cs, c ∈ hexDigits := by
  simp only [isAddress, Bool.and_eq_true, List.all_eq_true, isHexDigit_iff_mem]
  simp

/-- What begins with neither routine mark is refused. -/
theorem isRoutine_iff : isRoutine cs = true ↔ ∃ routine address,
    (routine = "sub_".toList ∨ routine = "nullsub_".toList) ∧ isAddress address = true ∧
      cs = routine ++ address := by
  constructor
  · intro hcs
    unfold isRoutine at hcs
    split at hcs
    · next address => exact ⟨_, address, Or.inl rfl, hcs, rfl⟩
    · next address => exact ⟨_, address, Or.inr rfl, hcs, rfl⟩
    · cases hcs
  · rintro ⟨routine, address, rfl | rfl, haddress, rfl⟩
    · exact haddress
    · exact haddress

theorem exists_jumps (cs : List Char) :
    ∃ jumps, cs = (List.replicate jumps jumpMark).flatten ++ dropJumps cs := by
  fun_induction dropJumps cs with
  | case1 rest ih =>
    obtain ⟨jumps, hrest⟩ := ih
    exact ⟨jumps + 1, congrArg (jumpMark ++ ·) hrest⟩
  | case2 cs _ => exact ⟨0, rfl⟩

theorem dropJumps_append (jumps : Nat) (cs : List Char) :
    dropJumps ((List.replicate jumps jumpMark).flatten ++ cs) = dropJumps cs := by
  induction jumps with
  | zero => rfl
  | succ jumps ih => exact ih

/-- No routine mark begins with a jump mark. -/
theorem dropJumps_of_isRoutine (hcs : isRoutine cs = true) : dropJumps cs = cs := by
  obtain ⟨routine, address, rfl | rfl, -, rfl⟩ := isRoutine_iff.mp hcs
  · rfl
  · rfl

theorem accepts_iff_isLabel {name : String} : accepts name = true ↔ IsLabel name := by
  constructor
  · intro haccepts
    obtain ⟨jumps, hjumps⟩ := exists_jumps name.toList
    obtain ⟨routine, address, hroutine, haddress, hrest⟩ := isRoutine_iff.mp haccepts
    obtain ⟨hne, hdigits⟩ := isAddress_iff.mp haddress
    refine ⟨jumps, routine, address, hroutine, hne, hdigits, ?_⟩
    rw [hjumps, hrest, List.append_assoc]
  · rintro ⟨jumps, routine, address, hroutine, hne, hdigits, hname⟩
    have hrest : isRoutine (routine ++ address) = true :=
      isRoutine_iff.mpr ⟨routine, address, hroutine, isAddress_iff.mpr ⟨hne, hdigits⟩, rfl⟩
    rw [accepts, hname, List.append_assoc, dropJumps_append, dropJumps_of_isRoutine hrest]
    exact hrest

end Recogniser

section Pattern
open RegularExpression

def word (cs : List Char) : RegularExpression Char := (cs.map char).foldr (· * ·) 1

def oneOf (cs : List Char) : RegularExpression Char := (cs.map char).foldr (· + ·) 0

/-- What matches labels from end to end: jump marks, a routine mark with its underscore, a digit
and further digits. -/
def pattern : RegularExpression Char :=
  star (word "j_".toList) * (word "sub".toList + word "nullsub".toList) * word "_".toList *
    (oneOf hexDigits * star (oneOf hexDigits))

variable {cs text : List Char}

theorem mem_word : text ∈ (word cs).matches' ↔ text = cs := by
  induction cs generalizing text with
  | nil => exact Language.mem_one text
  | cons c cs ih =>
    simp only [word, List.map_cons, List.foldr_cons, matches'_mul, matches'_char,
      Language.mem_mul] at ih ⊢
    constructor
    · rintro ⟨first, hfirst, rest, hrest, rfl⟩
      obtain rfl : first = [c] := hfirst
      rw [ih.mp hrest]
      rfl
    · rintro rfl
      exact ⟨[c], rfl, cs, ih.mpr rfl, rfl⟩

theorem mem_oneOf : text ∈ (oneOf cs).matches' ↔ ∃ c ∈ cs, text = [c] := by
  induction cs with
  | nil => simp [oneOf]
  | cons c cs ih =>
    simp only [oneOf, List.map_cons, List.foldr_cons, matches'_add, matches'_char,
      Language.mem_add] at ih ⊢
    rw [ih, List.exists_mem_cons_iff]
    rfl

theorem mem_star_word : text ∈ (star (word cs)).matches' ↔
    ∃ count, text = (List.replicate count cs).flatten := by
  simp only [matches'_star, Language.mem_kstar, mem_word]
  constructor
  · rintro ⟨parts, rfl, hparts⟩
    exact ⟨parts.length, congrArg List.flatten (List.eq_replicate_of_mem hparts)⟩
  · rintro ⟨count, rfl⟩
    exact ⟨_, rfl, fun part hpart => List.eq_of_mem_replicate hpart⟩

theorem mem_star_oneOf : text ∈ (star (oneOf cs)).matches' ↔ ∀ c ∈ text, c ∈ cs := by
  simp only [matches'_star, Language.mem_kstar, mem_oneOf]
  constructor
  · rintro ⟨parts, rfl, hparts⟩ c hc
    obtain ⟨part, hpart, hmem⟩ := List.mem_flatten.mp hc
    obtain ⟨d, hd, rfl⟩ := hparts part hpart
    rwa [List.mem_singleton.mp hmem]
  · intro hall
    refine ⟨text.map ([·]), (List.flatMap_singleton' text).symm, fun part hpart => ?_⟩
    obtain ⟨c, hc, rfl⟩ := List.mem_map.mp hpart
    exact ⟨c, hall c hc, rfl⟩

theorem mem_pattern_iff_isLabel {name : String} :
    name.toList ∈ pattern.matches' ↔ IsLabel name := by
  simp only [pattern, matches'_mul, matches'_add, Language.mem_mul, Language.mem_add, mem_word,
    mem_oneOf, mem_star_word, mem_star_oneOf]
  constructor
  · rintro ⟨_, ⟨_, ⟨_, ⟨jumps, rfl⟩, kind, hkind, rfl⟩, _, rfl, rfl⟩, _,
      ⟨_, ⟨first, hfirst, rfl⟩, digits, hdigits, rfl⟩, hname⟩
    refine ⟨jumps, kind ++ "_".toList, first :: digits, ?_, List.cons_ne_nil _ _,
      List.forall_mem_cons.mpr ⟨hfirst, hdigits⟩, ?_⟩
    · rcases hkind with rfl | rfl
      · exact Or.inl (by decide)
      · exact Or.inr (by decide)
    · rw [← hname]
      simp only [List.append_assoc]
      rfl
  · rintro ⟨jumps, routine, address, hroutine, hne, hdigits, hname⟩
    obtain ⟨kind, hkind, rfl⟩ : ∃ kind, (kind = "sub".toList ∨ kind = "nullsub".toList) ∧
        routine = kind ++ "_".toList := by
      rcases hroutine with rfl | rfl
      · exact ⟨_, Or.inl rfl, by decide⟩
      · exact ⟨_, Or.inr rfl, by decide⟩
    obtain ⟨first, digits, rfl⟩ := List.exists_cons_of_ne_nil hne
    obtain ⟨hfirst, hdigits⟩ := List.forall_mem_cons.mp hdigits
    refine ⟨_, ⟨_, ⟨_, ⟨jumps, rfl⟩, kind, hkind, rfl⟩, _, rfl, rfl⟩, _,
      ⟨_, ⟨first, hfirst, rfl⟩, digits, hdigits, rfl⟩, ?_⟩
    rw [hname]
    simp only [List.append_assoc]
    rfl

end Pattern

section Clearing

/-- A label becomes the empty name, and any other name stays. -/
def Clears (before after : String) : Prop :=
  (IsLabel before → after = "") ∧ (¬ IsLabel before → after = before)

theorem clears_clear (name : String) : Clears name (clear name) := by
  rw [Clears, ← accepts_iff_isLabel]
  constructor
  · exact fun haccepts => if_pos haccepts
  · exact fun hno => if_neg hno

/-- The empty name is no label either. -/
theorem accepts_clear (name : String) : accepts (clear name) = false := by
  unfold clear
  split
  · decide
  · next hno => simpa using hno

theorem clear_clear (name : String) : clear (clear name) = clear name :=
  if_neg (by rw [accepts_clear]; exact Bool.false_ne_true)

/-- A name is accepted just when it is a label, which is just when the pattern matches the whole of
it. Normalizing an observation clears the labels from its two names, leaves everything else as it
is, and has nothing left to do a second time. -/
theorem accepts_labels_and_normalized_clears :
    (∀ name, (accepts name = true ↔ IsLabel name) ∧
      (accepts name = true ↔ name.toList ∈ pattern.matches')) ∧
    ∀ o : Observation, Clears o.name o.normalized.name ∧
      Clears o.mangledName o.normalized.mangledName ∧
      o.normalized =
        { o with name := o.normalized.name, mangledName := o.normalized.mangledName } ∧
      o.normalized.normalized = o.normalized := by
  refine ⟨fun name => ⟨accepts_iff_isLabel, ?_⟩, fun o => ⟨clears_clear o.name,
    clears_clear o.mangledName, rfl, ?_⟩⟩
  · exact accepts_iff_isLabel.trans mem_pattern_iff_isLabel.symm
  · simp only [Observation.normalized, clear_clear]

/-- Jump marks and digits of either case, then texts with something before or behind a label. -/
example : (["j_j_nullsub_1aF", "sub_12 ", "nullnullsub_1", "sub_12\n", "j_sub_"].map accepts) =
    [true, false, false, false, false] := by
  decide

end Clearing

end VtableMerge.Label
