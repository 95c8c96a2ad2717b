import VtableMerge.Proofs.ExportedDocuments
import VtableMerge.Proofs.MergeRuns
import VtableMerge.Proofs.Owners

/-!
Showing what was exported. The two documents are read back whole from their files, and what is
shown of a class does not depend on the form of the slots or on the layout of the documents.
-/
namespace VtableMerge

open Json FileTree

theorem Load.document_of_restores {α : Type} {read : Reader α} {v : Value} {a : α}
    (h : Restores read 0 v a) (layout : Layout) (path : String) :
    Load.document read path (v.documentBytes layout) = .ok a := by
  rw [Load.document, h.ofBytes layout]

theorem ClassEntry.restores_document (entries : List ClassEntry) :
    Restores ClassEntry.reader.list 0 (ClassEntry.documentToJson entries) entries :=
  restores_list fun c _ => c.restores (by decide)

theorem Prototype.restores_entries {prototypes : List Prototype}
    (hslots : ∀ p ∈ prototypes, p.slotIndex < UInt64.size) :
    Restores Prototype.entryReader.list 0 (Prototype.entriesToJson prototypes) prototypes :=
  restores_list fun p hp => Prototype.restores (hslots p hp)

namespace ClassEntry

def inForm (encoding : VtableEncoding) (c : ClassEntry) : ClassEntry :=
  { c with vtable := c.slots.map fun slots => slots.map fun slot => ⟨encoding, slot⟩ }

theorem slots_inForm (encoding : VtableEncoding) (c : ClassEntry) :
    (c.inForm encoding).slots = c.slots := by
  rw [inForm, slots, Option.map_map]
  simp [Function.comp_def]

theorem inForm_ofNode (encoding encoding' : VtableEncoding) (c : ClassNode) :
    (ofNode encoding' c).inForm encoding = ofNode encoding c := by
  rw [inForm, slots_ofNode]
  rfl

end ClassEntry

namespace Run

variable {t t₁ t₂ : FileTree} {current : Location} {path : String}

section Files

/-- A document stands in its file after it was written. -/
theorem writes_of_ends_writeDocument (ht : t.WellFormed) {value : Value} {pretty : Bool}
    (h : Ends (writeDocument (fileSystem current) path value pretty) t (.ok ()) t₁) :
    ∃ x, Writes t current path (value.documentBytes (layout pretty)) x t₁ := by
  rcases ends_writeDocument h with ⟨hwrite, -⟩ | ⟨e, -, -, hr⟩
  · exact writes_of_writeFile ht hwrite
  · cases hr

/-- A file survives the writing of another one. -/
theorem readFile_of_writes_other {other : String} {content content' : List UInt8} {x y : Location}
    (hfirst : Writes t current path content x t₁) (hsecond : Writes t₁ current other content' y t₂)
    (hapart : t₂.sameEntry current path other = false) :
    t₂.readFile current path = .ok content ∧ t₂.readFile current other = .ok content' := by
  have hlocated := locate_mono hsecond.keeps hfirst.located
  have hne : x ≠ y := by
    rintro rfl
    have hsame := sameEntry_eq_true_iff.mpr ⟨x, hlocated, hsecond.located⟩
    rw [hapart] at hsame
    cases hsame
  constructor
  · exact readFile_eq_ok_iff.mpr
      ⟨x, hlocated, (hsecond.entry?_of_ne hne).trans hfirst.entry?_self⟩
  · exact hsecond.readFile_eq

theorem ends_documentFile {α : Type} {read : Reader α} {bytes : List UInt8} {a : α}
    (hread : t.readFile current path = .ok bytes) (ha : Load.document read path bytes = .ok a) :
    Ends (Load.documentFile (fileSystem current) read path) t (.ok a) t := by
  rw [Load.documentFile, ends_bind_of_ok (ends_readBytes_of_readFile hread)]
  exact ends_liftExcept.mpr ⟨ha.symm, rfl⟩

end Files

def answer (t : ExportedTables) (name : String) : Except Failure EffectiveVtable :=
  (t.effectiveVtable name).mapError Failure.ofLookupError

theorem ends_showClass {classesPath prototypesPath name : String} {classes : List ClassEntry}
    {prototypes : List Prototype} {r : Except Failure EffectiveVtable}
    (hclasses : Ends (Load.documentFile (fileSystem current) ClassEntry.reader.list classesPath) t
      (.ok classes) t)
    (hprototypes : Ends (Load.documentFile (fileSystem current) Prototype.entryReader.list
      prototypesPath) t (.ok prototypes) t) :
    Ends (showClass (fileSystem current) classesPath prototypesPath name) t r t₁ ↔
      r = answer ⟨classes, prototypes⟩ name ∧ t₁ = t := by
  rw [showClass, ends_bind_of_ok (ends_adapt_ok.mpr hclasses),
    ends_bind_of_ok (ends_adapt_ok.mpr hprototypes), answer]
  cases (ExportedTables.mk classes prototypes).effectiveVtable name with
  | ok v => exact ends_pure
  | error e => exact ends_throw

/-- The form of the slots has no part in what is shown. -/
theorem answer_ofNode (encoding encoding' : VtableEncoding) (classes : List ClassNode)
    (prototypes : List Prototype) (name : String) :
    answer ⟨classes.map (ClassEntry.ofNode encoding), prototypes⟩ name =
      answer ⟨classes.map (ClassEntry.ofNode encoding'), prototypes⟩ name := by
  have hform : classes.map (ClassEntry.ofNode encoding) =
      (classes.map (ClassEntry.ofNode encoding')).map (ClassEntry.inForm encoding) := by
    rw [List.map_map]
    exact List.map_congr_left fun c _ => (ClassEntry.inForm_ofNode encoding encoding' c).symm
  have hshown := @ExportedTables.effectiveVtable_map (ClassEntry.inForm encoding) (fun _ => rfl)
    (classes.map (ClassEntry.ofNode encoding')) prototypes (fun _ => rfl)
    (ClassEntry.slots_inForm encoding) name
  rw [answer, answer, hform, hshown]

/-- The class and the prototype document were written, in one format, to two files. -/
structure Exports (t : FileTree) (current : Location) (classesPath prototypesPath : String)
    (classes : List ClassNode) (table : PrototypeTable) (encoding : VtableEncoding)
    (pretty : Bool) (t₂ : FileTree) : Prop where
  wellFormed : t.WellFormed
  written : ∃ t₁,
    Ends (writeDocument (fileSystem current) classesPath
      (ClassEntry.documentToJson (classes.map (ClassEntry.ofNode encoding))) pretty)
        t (.ok ()) t₁ ∧
    Ends (writeDocument (fileSystem current) prototypesPath
      (Prototype.entriesToJson table.prototypes) pretty) t₁ (.ok ()) t₂
  apart : t₂.sameEntry current classesPath prototypesPath = false

section Documents
variable (classes : List ClassNode) {table : PrototypeTable}
  (hslots : ∀ p ∈ table.prototypes, p.slotIndex < UInt64.size)
include hslots

/-- Showing a class of exported documents gives the answer of the tables in either form. -/
theorem Exports.ends_showClass {classesPath prototypesPath : String} {encoding : VtableEncoding}
    {pretty : Bool}
    (h : Exports t current classesPath prototypesPath classes table encoding pretty t₂)
    (encoding' : VtableEncoding) (name : String) (r : Except Failure EffectiveVtable)
    (t₃ : FileTree) :
    Ends (showClass (fileSystem current) classesPath prototypesPath name) t₂ r t₃ ↔
      r = answer ⟨classes.map (ClassEntry.ofNode encoding'), table.prototypes⟩ name ∧ t₃ = t₂ := by
  obtain ⟨t₁, hfirst, hsecond⟩ := h.written
  obtain ⟨x, hx⟩ := writes_of_ends_writeDocument h.wellFormed hfirst
  obtain ⟨y, hy⟩ := writes_of_ends_writeDocument (hx.keeps.wellFormed h.wellFormed) hsecond
  obtain ⟨hclasses, hprototypes⟩ := readFile_of_writes_other hx hy h.apart
  have hload := ends_documentFile hclasses
    (Load.document_of_restores (ClassEntry.restores_document _) _ classesPath)
  have hload' := ends_documentFile hprototypes
    (Load.document_of_restores (Prototype.restores_entries hslots) _ prototypesPath)
  rw [Run.ends_showClass hload hload', answer_ofNode encoding encoding']

/-- Exported documents read back as what was written, in every format: the entries are the same,
the slots are those of the classes, and every class is shown the same. -/
theorem documents_read_back :
    (∀ encoding pretty path, Load.document ClassEntry.reader.list path
        ((ClassEntry.documentToJson (classes.map (ClassEntry.ofNode encoding))).documentBytes
          (layout pretty)) = .ok (classes.map (ClassEntry.ofNode encoding))) ∧
      (∀ pretty path, Load.document Prototype.entryReader.list path
        ((Prototype.entriesToJson table.prototypes).documentBytes (layout pretty)) =
          .ok table.prototypes) ∧
      (∀ encoding, (classes.map (ClassEntry.ofNode encoding)).map ClassEntry.slots =
        classes.map ClassNode.slots) ∧
      ∀ t t₂ current classesPath prototypesPath encoding pretty,
        Exports t current classesPath prototypesPath classes table encoding pretty t₂ →
        ∀ encoding' name r t₃,
          Ends (showClass (fileSystem current) classesPath prototypesPath name) t₂ r t₃ ↔
            r = answer ⟨classes.map (ClassEntry.ofNode encoding'), table.prototypes⟩ name ∧
              t₃ = t₂ := by
  refine ⟨fun encoding pretty path => ?_, fun pretty path => ?_, fun encoding => ?_, ?_⟩
  · exact Load.document_of_restores (ClassEntry.restores_document _) _ path
  · exact Load.document_of_restores (Prototype.restores_entries hslots) _ path
  · rw [List.map_map]
    exact List.map_congr_left fun c _ => ClassEntry.slots_ofNode encoding c
  · intro t t₂ current classesPath prototypesPath encoding pretty h
    exact h.ends_showClass classes hslots

end Documents

/-- Two classes of which the second is resolved, with names that need escapes. -/
def quotedClasses : List ClassNode :=
  [⟨"Bare\n", none, true, none⟩,
    ⟨"\"Disk\\\"", some "Bare\n", false,
      some [⟨⟨0⟩, true, false, some "ζ𝄞"⟩, ⟨⟨1⟩, false, true, none⟩]⟩]

def quotedTable : PrototypeTable :=
  ⟨[⟨⟨"read\u0000", "", "int", [⟨"char", some "c"⟩, ⟨"???", none⟩]⟩, ⟨0⟩, 0, "\"Disk\\\""⟩,
    ⟨Signature.unknown, ⟨1⟩, 1, "\"Disk\\\""⟩]⟩

/-- Tables written to two files are shown, whatever they are called. -/
theorem documents_read_back_sample :
    (∀ p ∈ quotedTable.prototypes, p.slotIndex < UInt64.size) ∧
      ∃ t₂, Exports FileTree.empty [] "c.json" "p.json" quotedClasses quotedTable .compact true t₂ ∧
        ∀ name r t₃, Ends (showClass (fileSystem []) "c.json" "p.json" name) t₂ r t₃ ↔
          r = answer ⟨quotedClasses.map (ClassEntry.ofNode .objects), quotedTable.prototypes⟩ name ∧
            t₃ = t₂ := by
  have hslots : ∀ p ∈ quotedTable.prototypes, p.slotIndex < UInt64.size := by decide
  have hexports : ∃ t₂, Exports FileTree.empty [] "c.json" "p.json" quotedClasses quotedTable
      .compact true t₂ := ⟨_, by decide, ⟨_, rfl, rfl⟩, by rfl⟩
  obtain ⟨t₂, h⟩ := hexports
  obtain ⟨-, -, -, hshow⟩ := documents_read_back quotedClasses hslots
  exact ⟨hslots, t₂, h, hshow _ _ _ _ _ _ _ h .objects⟩

end Run

end VtableMerge
