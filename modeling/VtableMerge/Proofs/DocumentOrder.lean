import VtableMerge.Proofs.Ancestry
import VtableMerge.Proofs.Owners

/-!
Documents in another order. As long as no class name and no prototype number is used twice, every
look-up finds the same entry wherever it stands. A prototype that stands at the position of its
number is the only one of that number, so looking there first changes nothing. So effective vtables
do not depend on the order of the documents.
-/
namespace VtableMerge.ExportedTables

variable {t t' : ExportedTables}

/-- Where numbers are distinct, a look-up by position agrees with a search. -/
theorem prototype?_eq_find? (hdistinct : (t.prototypes.map Prototype.id).Nodup) (id : ProtoId) :
    t.prototype? id = t.prototypes.find? fun p => p.id == id := by
  unfold prototype?
  split
  · next p hp =>
    obtain ⟨hmem, hid⟩ := Option.filter_eq_some_iff.mp hp
    have hid : p.id = id := by simpa using hid
    exact ((find?_key_eq_some_iff Prototype.id hdistinct).mpr
      ⟨List.mem_of_getElem? hmem, hid⟩).symm
  · rfl

theorem prototype?_eq_of_perm (hdistinct : (t.prototypes.map Prototype.id).Nodup)
    (hperm : t'.prototypes.Perm t.prototypes) (id : ProtoId) :
    t'.prototype? id = t.prototype? id := by
  have hdistinct' : (t'.prototypes.map Prototype.id).Nodup :=
    (hperm.map Prototype.id).nodup_iff.mpr hdistinct
  rw [prototype?_eq_find? hdistinct', prototype?_eq_find? hdistinct]
  exact find?_key_eq_of_perm Prototype.id hdistinct hperm id

section Classes
variable (hsame : ∀ name, t'.class? name = t.class? name)
include hsame

theorem nextClass?_eq_of_class?_eq (seen : List String) (c : ClassEntry) :
    t'.nextClass? seen c = t.nextClass? seen c := by
  simp only [nextClass?, hsame]

theorem ownerFrom?_eq_of_class?_eq (steps : Nat) : t'.ownerFrom? steps = t.ownerFrom? steps := by
  induction steps with
  | zero => rfl
  | succ steps ih =>
    funext seen c
    rw [ownerFrom?, ownerFrom?, nextClass?_eq_of_class?_eq hsame, ih]

/-- The owner of a vtable depends on the look-up of classes and on their number. -/
theorem vtableOwner_eq_of_class?_eq (hlength : t'.classes.length = t.classes.length)
    (name : String) : t'.vtableOwner name = t.vtableOwner name := by
  simp only [vtableOwner, hsame, hlength, ownerFrom?_eq_of_class?_eq hsame]

end Classes

theorem effectiveVtable_eq_of_lookups_eq (hclass : ∀ name, t'.class? name = t.class? name)
    (hlength : t'.classes.length = t.classes.length)
    (hprototype : ∀ id, t'.prototype? id = t.prototype? id) (name : String) :
    t'.effectiveVtable name = t.effectiveVtable name := by
  simp only [effectiveVtable, vtableOwner_eq_of_class?_eq hclass hlength,
    methodsFrom_eq_of_prototype?_eq hprototype]

/-- The order of documents without repetitions does not matter to any effective vtable, and a
search finds the prototypes of every part of them in any order. -/
theorem effectiveVtable_eq_of_perm (hnames : (t.classes.map ClassEntry.name).Nodup)
    (hids : (t.prototypes.map Prototype.id).Nodup) (hclasses : t'.classes.Perm t.classes)
    (hprototypes : t'.prototypes.Perm t.prototypes) :
    (∀ name, t'.effectiveVtable name = t.effectiveVtable name) ∧
      ∀ classes prototypes, prototypes.Subperm t.prototypes → ∀ id,
        (ExportedTables.mk classes prototypes).prototype? id =
          prototypes.find? fun p => p.id == id := by
  constructor
  · exact effectiveVtable_eq_of_lookups_eq
      (find?_key_eq_of_perm ClassEntry.name hnames hclasses) hclasses.length_eq
      (prototype?_eq_of_perm hids hprototypes)
  · intro classes prototypes hpart
    apply prototype?_eq_find?
    obtain ⟨kept, hkept, hsub⟩ := hpart
    exact (hkept.map Prototype.id).nodup_iff.mp (hids.sublist (hsub.map Prototype.id))

/-- Read backward, these documents have their prototypes at the positions of their numbers. -/
theorem effectiveVtable_eq_of_perm_sample :
    let t : ExportedTables :=
      ⟨[⟨"Tape", some "Disk", false, none⟩, ⟨"Disk", some "Device", false, none⟩,
          ⟨"Device", none, true,
            some [⟨.compact, ⟨⟨1⟩, true, false, some "_ZN6Device4readEv"⟩⟩,
              ⟨.objects, ⟨⟨0⟩, false, true, none⟩⟩]⟩],
        [⟨⟨"load", "", "int", []⟩, ⟨1⟩, 0, "Device"⟩, ⟨⟨"spin", "", "int", []⟩, ⟨0⟩, 1, "Device"⟩]⟩
    let t' : ExportedTables := ⟨t.classes.reverse, t.prototypes.reverse⟩
    (t.classes.map ClassEntry.name).Nodup ∧ (t.prototypes.map Prototype.id).Nodup ∧
      t'.classes.Perm t.classes ∧ t'.prototypes.Perm t.prototypes ∧
      t'.effectiveVtable "Tape" = t.effectiveVtable "Tape" ∧
      ∀ id, t'.prototype? id = t'.prototypes.find? fun p => p.id == id := by
  intro t t'
  have hnames : (t.classes.map ClassEntry.name).Nodup := by decide
  have hids : (t.prototypes.map Prototype.id).Nodup := by decide
  have hclasses : t'.classes.Perm t.classes := List.reverse_perm t.classes
  have hprototypes : t'.prototypes.Perm t.prototypes := List.reverse_perm t.prototypes
  have hsame := effectiveVtable_eq_of_perm hnames hids hclasses hprototypes
  exact ⟨hnames, hids, hclasses, hprototypes, hsame.1 "Tape",
    hsame.2 t'.classes t'.prototypes hprototypes.subperm⟩

end VtableMerge.ExportedTables
