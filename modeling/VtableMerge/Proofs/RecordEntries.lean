import Mathlib.Data.List.Perm.Basic
import VtableMerge.Json.Fields

/-!
Records from the entries of objects. Each field reads the entry under one of its names, or takes
the value it has when there is none, and entries under other names are skipped if they are whole.
So the order of the entries does not matter, and neither do further ones.
-/
namespace VtableMerge.Json

namespace Raw
variable {items : List Raw} {entries : List (Raw × Raw)}

theorem areWhole_iff : areWhole items = true ↔ ∀ raw ∈ items, raw.isWhole = true := by
  induction items with
  | nil => exact iff_of_true rfl (List.forall_mem_nil _)
  | cons raw rest ih => rw [areWhole, Bool.and_eq_true, ih, List.forall_mem_cons]

theorem entriesAreWhole_iff : entriesAreWhole entries = true ↔
    ∀ e ∈ entries, e.1.isString = true ∧ e.2.isWhole = true := by
  induction entries with
  | nil => exact iff_of_true rfl (List.forall_mem_nil _)
  | cons e rest ih =>
    obtain ⟨key, raw⟩ := e
    rw [entriesAreWhole, Bool.and_eq_true, Bool.and_eq_true, ih, List.forall_mem_cons]

end Raw

section Lists
variable {α : Type} {read : Reader α} {depth : Nat}

theorem each_eq_ok {items : List Raw} {values : List α}
    (h : List.Forall₂ (fun raw a => read depth raw = .ok a) items values) :
    Reader.each read depth items = .ok values := by
  induction h with
  | nil => rfl
  | cons hread _ ih =>
    rw [Reader.each, hread, ih]
    rfl

theorem entries_eq_ok {entries : List (Raw × Raw)} {values : List (String × α)}
    (h : List.Forall₂ (fun e c => e.1 = .string (some c.1) ∧ read depth e.2 = .ok c.2)
      entries values) : Reader.entries read depth entries = .ok values := by
  induction h with
  | nil => rfl
  | @cons e c _ _ he _ ih =>
    obtain ⟨key, raw⟩ := e
    obtain ⟨rfl, hread⟩ := he
    rw [Reader.entries, hread, ih]
    rfl

end Lists

def Field.AbsentFrom {α : Type} (f : Field α) (entries : List (Raw × Raw)) : Prop :=
  ∀ e ∈ entries, ∀ key, e.1 = .string (some key) → f.answersTo key = false

namespace Fields

def names {αs : List Type} : Fields αs → List String
  | .nil => []
  | .cons f fs => f.name :: (f.aliases ++ fs.names)

def Skips {αs : List Type} (fs : Fields αs) (e : Raw × Raw) : Prop :=
  ∃ key, e.1 = .string (some key) ∧ key ∉ fs.names ∧ e.2.isWhole = true

/-- Entries that fill a row, in the declared order of the fields. A field that is left out takes
the value that it has when it is missing. -/
inductive Fills (depth : Nat) :
    {αs : List Type} → Fields αs → List (Raw × Raw) → Row αs → Prop
  | nil : Fills depth .nil [] ()
  | cons {α : Type} {αs : List Type} {f : Field α} {fs : Fields αs} {key : String} {raw : Raw}
      {a : α} {entries : List (Raw × Raw)} {row : Row αs} (hkey : f.answersTo key = true)
      (hread : f.read depth raw = .ok a) (hrest : Fills depth fs entries row) :
      Fills depth (.cons f fs) ((.string (some key), raw) :: entries) (a, row)
  | omitted {α : Type} {αs : List Type} {f : Field α} {fs : Fields αs} {a : α}
      {entries : List (Raw × Raw)} {row : Row αs} (hmissing : f.ifMissing = some a)
      (hrest : Fills depth fs entries row) : Fills depth (.cons f fs) entries (a, row)

variable {α : Type} {αs : List Type} {f : Field α} {fs : Fields αs} {depth : Nat}
  {entries shown extras : List (Raw × Raw)} {row : Row αs}

section Names

theorem mem_names_cons {key : String} :
    key ∈ (Fields.cons f fs).names ↔ f.answersTo key = true ∨ key ∈ fs.names := by
  rw [names, Field.answersTo, List.mem_cons, List.mem_append, Bool.or_eq_true, beq_iff_eq,
    List.contains_iff_mem, or_assoc]

theorem nodup_names_of_cons (hnames : (Fields.cons f fs).names.Nodup) : fs.names.Nodup :=
  (List.nodup_append.mp (List.nodup_cons.mp hnames).2).2.1

/-- A name of a later field is none of the first one. -/
theorem answersTo_eq_false (hnames : (Fields.cons f fs).names.Nodup) {key : String}
    (hkey : key ∈ fs.names) : f.answersTo key = false := by
  rw [names, List.nodup_cons, List.nodup_append] at hnames
  simp only [Field.answersTo, List.contains_eq_mem, Bool.or_eq_false_iff, beq_eq_false_iff_ne,
    decide_eq_false_iff_not]
  refine ⟨fun heq => hnames.1 (List.mem_append_right _ (heq ▸ hkey)), fun halias => ?_⟩
  exact hnames.2.2.2 _ halias _ hkey rfl

theorem Skips.of_cons {e : Raw × Raw} (h : (Fields.cons f fs).Skips e) : fs.Skips e := by
  obtain ⟨key, hkey, hname, hwhole⟩ := h
  exact ⟨key, hkey, fun hmem => hname (mem_names_cons.mpr (.inr hmem)), hwhole⟩

theorem Fills.exists_key_mem (h : Fills depth fs entries row) :
    ∀ e ∈ entries, ∃ key ∈ fs.names, e.1 = .string (some key) := by
  induction h with
  | nil => exact List.forall_mem_nil _
  | @cons α αs f fs key raw a entries row hkey _ _ ih =>
    refine List.forall_mem_cons.mpr ⟨⟨key, mem_names_cons.mpr (.inl hkey), rfl⟩, fun e he => ?_⟩
    obtain ⟨key, hkey, heq⟩ := ih e he
    exact ⟨key, mem_names_cons.mpr (.inr hkey), heq⟩
  | omitted _ _ ih =>
    intro e he
    obtain ⟨key, hkey, heq⟩ := ih e he
    exact ⟨key, mem_names_cons.mpr (.inr hkey), heq⟩

/-- Neither the entries of the other fields nor the skipped ones are taken for the first field. -/
theorem Fills.absentFrom (h : Fills depth fs shown row) (hnames : (Fields.cons f fs).names.Nodup)
    (hextras : ∀ e ∈ extras, (Fields.cons f fs).Skips e) : f.AbsentFrom (shown ++ extras) := by
  intro e he key hkey
  rcases List.mem_append.mp he with he | he
  · obtain ⟨other, hother, heq⟩ := h.exists_key_mem e he
    obtain rfl : key = other := by simpa [hkey] using heq
    exact answersTo_eq_false hnames hother
  · obtain ⟨other, heq, hother, -⟩ := hextras e he
    obtain rfl : key = other := by simpa [hkey] using heq
    exact Bool.eq_false_iff.mpr fun hanswers => hother (mem_names_cons.mpr (.inl hanswers))

end Names

section Collecting

theorem collect_nil (hextras : ∀ e ∈ extras, Fields.nil.Skips e) :
    Fields.nil.collect depth extras () = .ok () := by
  induction extras with
  | nil => rfl
  | cons e rest ih =>
    obtain ⟨⟨key, hkey, -, hwhole⟩, hrest⟩ := List.forall_mem_cons.mp hextras
    obtain ⟨name, raw⟩ := e
    obtain rfl : name = .string (some key) := hkey
    simp only [collect, put?, hwhole, if_true, ih hrest]

/-- An entry whose key is no text is an error. -/
theorem collect_of_forall_ne {e : Raw × Raw} (hname : ∀ key, e.1 ≠ .string (some key))
    (rest : List (Raw × Raw)) (partialRow : PartialRow αs) :
    fs.collect depth (e :: rest) partialRow = .error .malformed := by
  obtain ⟨name, raw⟩ := e
  cases name with
  | string content =>
    cases content with
    | none => rfl
    | some key => exact absurd rfl (hname key)
  | _ => rfl

/-- A field has no part in entries without it. -/
theorem collect_cons_of_absentFrom (known : Option α) (partialRow : PartialRow αs)
    (habsent : f.AbsentFrom entries) :
    (Fields.cons f fs).collect depth entries (known, partialRow) =
      (fs.collect depth entries partialRow).map fun row => (known, row) := by
  induction entries generalizing partialRow with
  | nil => rfl
  | cons e entries ih =>
    obtain ⟨hfirst, hothers⟩ := List.forall_mem_cons.mp habsent
    have hrest := fun row => ih row hothers
    by_cases hname : ∀ key, e.1 ≠ .string (some key)
    · rw [collect_of_forall_ne hname entries partialRow]
      exact collect_of_forall_ne hname _ _
    · obtain ⟨name, raw⟩ := e
      obtain ⟨key, rfl⟩ : ∃ key, name = .string (some key) := by simpa using hname
      simp only [collect, put?, hfirst key rfl, Bool.false_eq_true, if_false]
      cases fs.put? depth key raw partialRow with
      | none =>
        simp only [Option.map_none, hrest]
        cases raw.isWhole with
        | true => rfl
        | false => rfl
      | some result =>
        cases result with
        | ok row => exact hrest row
        | error e => rfl

/-- Wherever its entry stands, a field reads it, and the other fields read what is left. -/
theorem collect_cons_of_append {before after : List (Raw × Raw)} {key : String} {raw : Raw} {a : α}
    (hkey : f.answersTo key = true) (hread : f.read depth raw = .ok a)
    (habsent : f.AbsentFrom (before ++ after)) {partialRow met : PartialRow αs}
    (hrest : fs.collect depth (before ++ after) partialRow = .ok met) :
    (Fields.cons f fs).collect depth (before ++ (.string (some key), raw) :: after)
      (none, partialRow) = .ok (some a, met) := by
  induction before generalizing partialRow with
  | nil =>
    rw [List.nil_append] at habsent hrest
    simp only [List.nil_append, collect, put?, hkey, if_true, hread, Except.map,
      collect_cons_of_absentFrom _ _ habsent, hrest]
    rfl
  | cons e before ih =>
    obtain ⟨hfirst, hothers⟩ := List.forall_mem_cons.mp habsent
    rw [List.cons_append] at hrest ⊢
    by_cases hname : ∀ key, e.1 ≠ .string (some key)
    · rw [collect_of_forall_ne hname] at hrest
      cases hrest
    · obtain ⟨name, raw'⟩ := e
      obtain ⟨other, rfl⟩ : ∃ key, name = .string (some key) := by simpa using hname
      simp only [collect, put?, hfirst other rfl, Bool.false_eq_true, if_false] at hrest ⊢
      cases hput : fs.put? depth other raw' partialRow with
      | none =>
        rw [hput] at hrest
        simp only [Option.map_none] at hrest ⊢
        split at hrest
        · next hwhole =>
          rw [if_pos hwhole]
          exact ih hothers hrest
        · cases hrest
      | some result =>
        rw [hput] at hrest
        cases result with
        | ok row => exact ih hothers hrest
        | error e => cases hrest

/-- What is collected completes to the row, in whatever order the entries stand. -/
theorem exists_collect_of_fills (hnames : fs.names.Nodup) (h : Fills depth fs shown row)
    (hextras : ∀ e ∈ extras, fs.Skips e) (hperm : entries.Perm (shown ++ extras)) :
    ∃ met, fs.collect depth entries fs.noneMet = .ok met ∧ fs.complete met = .ok row := by
  induction h generalizing entries with
  | nil => exact ⟨(), collect_nil fun e he => hextras e (hperm.mem_iff.mp he), rfl⟩
  | @cons α αs f fs key raw a shown row hkey hread hrest ih =>
    -- Without the entry of the field, what stands around it is in some order what is left.
    have hmem : (.string (some key), raw) ∈ entries := hperm.mem_iff.mpr List.mem_cons_self
    obtain ⟨before, after, rfl⟩ := List.append_of_mem hmem
    have hothers : (before ++ after).Perm (shown ++ extras) :=
      (List.perm_cons _).mp (List.perm_middle.symm.trans hperm)
    have habsent : f.AbsentFrom (before ++ after) :=
      fun e he => hrest.absentFrom hnames hextras e (hothers.mem_iff.mp he)
    obtain ⟨met, hcollect, hcomplete⟩ :=
      ih (nodup_names_of_cons hnames) (fun e he => (hextras e he).of_cons) hothers
    refine ⟨(some a, met), collect_cons_of_append hkey hread habsent hcollect, ?_⟩
    simp only [complete, hcomplete]
    rfl
  | @omitted α αs f fs a shown row hmissing hrest ih =>
    have habsent : f.AbsentFrom entries :=
      fun e he => hrest.absentFrom hnames hextras e (hperm.mem_iff.mp he)
    obtain ⟨met, hcollect, hcomplete⟩ :=
      ih (nodup_names_of_cons hnames) (fun e he => (hextras e he).of_cons) hperm
    refine ⟨(none, met), ?_, ?_⟩
    · simp only [noneMet, collect_cons_of_absentFrom _ _ habsent, hcollect]
      rfl
    · simp only [complete, hmissing, hcomplete]
      rfl

/-- A record is read from the entries that fill it, in any order and among others. -/
theorem record_of_fills {type : String} {build : Row αs → α} (hnames : fs.names.Nodup)
    (h : Fills (depth + 1) fs shown row) (hextras : ∀ e ∈ extras, fs.Skips e)
    (hperm : entries.Perm (shown ++ extras)) :
    Reader.record type fs build depth (.object entries true) = .ok (build row) := by
  obtain ⟨met, hcollect, hcomplete⟩ := exists_collect_of_fills hnames h hextras hperm
  simp only [Reader.record, hcollect, bind, Except.bind, if_true, hcomplete]
  rfl

end Collecting

end Fields

end VtableMerge.Json
