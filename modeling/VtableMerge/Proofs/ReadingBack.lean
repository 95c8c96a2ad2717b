import VtableMerge.Load
import VtableMerge.Proofs.KeyedEntries
import VtableMerge.Proofs.Parsing
import VtableMerge.Proofs.RecordEntries
import VtableMerge.Proofs.Rendering
import VtableMerge.Proofs.Utf8Decoding

/-!
Reading back what was written. A reader restores a value when it gets the value back from the
tree that is written for it; readers of lists, of optional values and of records restore what
their parts restore. A document of a restored value is read back from its bytes.
-/
namespace VtableMerge

namespace Json

/-- The text of a value may end in blanks. -/
theorem Raw.ofBytes_encode (layout : Layout) {v : Value} (h : v.Integral) {gap : List Char}
    (hgap : Blank gap) : Raw.ofBytes (Utf8.encode (render layout 0 v ++ gap)) = ⟨v.raw, true⟩ := by
  rw [Raw.ofBytes, Utf8.symbols_encode]
  exact Raw.parse_of_spells blank_nil (spells_render layout h 0) hgap

theorem Raw.ofBytes_documentBytes (layout : Layout) {v : Value} (h : v.Integral) :
    Raw.ofBytes (v.documentBytes layout) = ⟨v.raw, true⟩ :=
  Raw.ofBytes_encode layout h (by simp [Blank, blanks])

theorem Raw.ofBytes_text (layout : Layout) {v : Value} (h : v.Integral) :
    Raw.ofBytes (Utf8.encodeString (v.text layout)) = ⟨v.raw, true⟩ := by
  rw [Utf8.encodeString, Value.text, String.toList_ofList, ← List.append_nil (render layout 0 v)]
  exact Raw.ofBytes_encode layout h blank_nil

/-- A reader gets a value back from the tree that is written for it. -/
structure Restores {α : Type} (read : Reader α) (depth : Nat) (v : Value) (a : α) : Prop where
  integral : v.Integral
  read : read depth v.raw = .ok a

section Parts
variable {α β : Type} {read : Reader α} {depth : Nat}

theorem restores_bool (b : Bool) : Restores Reader.bool depth (.bool b) b := ⟨.bool b, rfl⟩

theorem restores_string (s : String) : Restores Reader.string depth (.string s) s :=
  ⟨.string s, rfl⟩

theorem restores_natBelow {limit : Nat} (type : String) {n : Nat} (hn : n < limit)
    (hlimit : limit ≤ UInt64.size) : Restores (Reader.natBelow limit type) depth (.nat n) n := by
  refine ⟨.int n, ?_⟩
  have hvalue : (Numeral.ofInt n).value? = some (.int n) := value?_ofInt (by omega) (by omega)
  have hrange : (decide (0 ≤ (n : Int)) && decide ((n : Int) < limit)) = true := by
    simp [hn]
  simp only [Value.nat, Value.raw, Reader.natBelow, hvalue, if_pos hrange, Int.toNat_natCast]

theorem restores_size {n : Nat} (hn : n < UInt64.size) :
    Restores Reader.size depth (.nat n) n := restores_natBelow "usize" hn (Nat.le_refl _)

/-- A name is read as its alternative. -/
theorem restores_choice {named : List (String × α)} {name : String} {a : α}
    (hname : named.lookup name = Option.some a) :
    Restores (Reader.choice named) depth (.string name) a := by
  refine ⟨.string name, ?_⟩
  simp only [Value.raw, Reader.choice, Reader.alternative, hname]

theorem Restores.map {v : Value} {a : α} (h : Restores read depth v a) (f : α → β) :
    Restores (Reader.map read f) depth v (f a) :=
  ⟨h.integral, by rw [Reader.map, h.read]; rfl⟩

theorem restores_none : Restores (Reader.optional read) depth .null none := ⟨.null, rfl⟩

theorem Restores.some {v : Value} {a : α} (h : Restores read depth v a) (hv : v.raw ≠ .null) :
    Restores (Reader.optional read) depth v (some a) := by
  refine ⟨h.integral, ?_⟩
  unfold Reader.optional
  split
  · next hnull => exact absurd hnull hv
  · rw [h.read]; rfl

/-- An optional value is restored when the value is, unless it is written as null. -/
theorem restores_optional {write : α → Value} {o : Option α}
    (h : ∀ a, o = Option.some a → Restores read depth (write a) a ∧ (write a).raw ≠ .null) :
    Restores (Reader.optional read) depth (.optional write o) o := by
  cases o with
  | none => exact restores_none
  | some a => exact (h a rfl).1.some (h a rfl).2

theorem each_rawItems {write : α → Value} {items : List α}
    (h : ∀ a ∈ items, read depth (write a).raw = .ok a) :
    Reader.each read depth (Value.rawItems (items.map write)) = .ok items := by
  refine each_eq_ok ?_
  induction items with
  | nil => exact .nil
  | cons a items ih =>
    obtain ⟨ha, hitems⟩ := List.forall_mem_cons.mp h
    exact .cons ha (ih hitems)

theorem restores_list {write : α → Value} {items : List α}
    (h : ∀ a ∈ items, Restores read (depth + 1) (write a) a) :
    Restores (Reader.list read) depth (.list write items) items := by
  refine ⟨.array fun v hv => ?_, ?_⟩
  · obtain ⟨a, ha, rfl⟩ := List.mem_map.mp hv
    exact (h a ha).integral
  · rw [Value.list, Value.raw, Reader.list, each_rawItems fun a ha => (h a ha).read]
    rfl

theorem entries_rawFields {write : α → Value} {d : List (String × α)}
    (h : ∀ e ∈ d, read depth (write e.2).raw = .ok e.2) :
    Reader.entries read depth (Value.rawFields (d.map fun (key, a) => (key, write a))) =
      .ok d := by
  refine entries_eq_ok ?_
  induction d with
  | nil => exact .nil
  | cons e d ih =>
    obtain ⟨he, hd⟩ := List.forall_mem_cons.mp h
    exact .cons ⟨rfl, he⟩ (ih hd)

/-- A map is restored whole, since its keys are written in their order. -/
theorem restores_keyed {write : α → Value} {d : List (String × α)} (hd : Keyed.Ascending d)
    (h : ∀ e ∈ d, Restores read (depth + 1) (write e.2) e.2) :
    Restores (Reader.keyed read) depth (.object (d.map fun (key, a) => (key, write a))) d := by
  refine ⟨.object fun f hf => ?_, ?_⟩
  · obtain ⟨e, he, rfl⟩ := List.mem_map.mp hf
    exact (h e he).integral
  · rw [Value.raw, Reader.keyed, entries_rawFields fun e he => (h e he).read]
    exact congrArg Except.ok (Keyed.ofEntries_of_perm (.refl d) hd)

end Parts

section Records

/-- Fields written under their own names in their declared order. A field that is left out takes
the value that it has when it is missing. -/
inductive Presents (depth : Nat) :
    {αs : List Type} → Fields αs → List (String × Value) → Row αs → Prop
  | nil : Presents depth .nil [] ()
  | cons {α : Type} {αs : List Type} {f : Field α} {fs : Fields αs} {v : Value} {a : α}
      {entries : List (String × Value)} {row : Row αs} (hv : Restores f.read depth v a)
      (hrest : Presents depth fs entries row) :
      Presents depth (.cons f fs) ((f.name, v) :: entries) (a, row)
  | omitted {α : Type} {αs : List Type} {f : Field α} {fs : Fields αs} {a : α}
      {entries : List (String × Value)} {row : Row αs} (hmissing : f.ifMissing = some a)
      (hrest : Presents depth fs entries row) : Presents depth (.cons f fs) entries (a, row)

variable {depth : Nat} {αs : List Type} {fs : Fields αs} {entries : List (String × Value)}
  {row : Row αs}

theorem Presents.integral (h : Presents depth fs entries row) :
    (Value.object entries).Integral := by
  refine .object ?_
  induction h with
  | nil => exact List.forall_mem_nil _
  | cons hv _ ih => exact List.forall_mem_cons.mpr ⟨hv.integral, ih⟩
  | omitted _ _ ih => exact ih

/-- What is written for the fields fills the row. -/
theorem Presents.fills (h : Presents depth fs entries row) :
    fs.Fills depth (Value.rawFields entries) row := by
  induction h with
  | nil => exact .nil
  | cons hv _ ih => exact .cons (by simp [Field.answersTo]) hv.read ih
  | omitted hmissing _ ih => exact .omitted hmissing ih

/-- A field that may be omitted, written only if it has a value. -/
theorem Presents.present {α : Type} {read : Reader α} {write : α → Value} {name : String}
    {o : Option α}
    (ho : ∀ a, o = some a → Restores read depth (write a) a ∧ (write a).raw ≠ .null)
    (hrest : Presents depth fs entries row) :
    Presents depth (.cons (.omittable name read) fs) (Value.present name write o ++ entries)
      (o, row) := by
  cases o with
  | none => exact .omitted rfl hrest
  | some a => exact .cons ((ho a rfl).1.some (ho a rfl).2) hrest

/-- A record is restored from an object that presents its fields. -/
theorem restores_record {α : Type} {type : String} {build : Row αs → α} (hnames : fs.names.Nodup)
    (h : Presents (depth + 1) fs entries row) :
    Restores (Reader.record type fs build) depth (.object entries) (build row) := by
  refine ⟨h.integral, ?_⟩
  rw [Value.raw]
  refine Fields.record_of_fills hnames h.fills (List.forall_mem_nil _) ?_
  rw [List.append_nil]

end Records

section Documents
variable {α : Type} {read : Reader α} {v : Value} {a : α}

theorem Restores.ofBytes_of_raw (h : Restores read 0 v a) {bytes : List UInt8}
    (hbytes : Raw.ofBytes bytes = ⟨v.raw, true⟩) : read.ofBytes bytes = .ok a := by
  simp only [Reader.ofBytes, hbytes, h.read, bind, Except.bind, if_true]
  rfl

/-- A restored value is read back from the document that is written for it, in both layouts. -/
theorem Restores.ofBytes (h : Restores read 0 v a) (layout : Layout) :
    read.ofBytes (v.documentBytes layout) = .ok a :=
  h.ofBytes_of_raw (Raw.ofBytes_documentBytes layout h.integral)

/-- It is read back from its text alone as well, without the line end of a document. -/
theorem Restores.ofText (h : Restores read 0 v a) (layout : Layout) :
    read.ofBytes (Utf8.encodeString (v.text layout)) = .ok a :=
  h.ofBytes_of_raw (Raw.ofBytes_text layout h.integral)

end Documents

end Json

end VtableMerge
