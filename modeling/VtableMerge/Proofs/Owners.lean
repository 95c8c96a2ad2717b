import Mathlib.Data.List.Nodup
import Mathlib.Data.List.Perm.Subperm
import VtableMerge.Lookup

/-!
Effective vtables in any exported documents. The class that owns the vtable is the first one with
a vtable on the way up from a class, and the walk finds it although it remembers where it was and
counts its steps: a class met twice would lead to the owner sooner.
-/
namespace VtableMerge

/-- Exporting a class keeps its slots, in both forms. -/
theorem ClassEntry.slots_ofNode (encoding : VtableEncoding) (c : ClassNode) :
    (ClassEntry.ofNode encoding c).slots = c.slots := by
  simp [ClassEntry.slots, ClassEntry.ofNode, Function.comp_def]

namespace ExportedTables

def ascend (t : ExportedTables) : Nat → String → Option ClassEntry
  | 0, name => t.class? name
  | n + 1, name => (t.class? name).bind fun c => c.parent.bind (t.ascend n)

/-- The first class with a vtable on the way up, a number of steps above. -/
structure Owns (t : ExportedTables) (name : String) (n : Nat) (owner : ClassEntry) : Prop where
  met : t.ascend n name = some owner
  filled : owner.vtable.isSome = true
  nearest : ∀ i < n, ∀ c, t.ascend i name = some c → c.vtable = none

variable {t : ExportedTables}

theorem name_of_class? {name : String} {c : ClassEntry} (hc : t.class? name = some c) :
    c.name = name := by
  simpa using List.find?_some hc

theorem mem_of_class? {name : String} {c : ClassEntry} (hc : t.class? name = some c) :
    c ∈ t.classes := List.mem_of_find?_eq_some hc

theorem class?_eq_none_iff {name : String} :
    t.class? name = none ↔ ∀ c ∈ t.classes, c.name ≠ name := by
  simp [class?]

theorem nextClass?_eq_some {seen : List String} {parent : String} {c d : ClassEntry}
    (hparent : c.parent = some parent) (hnew : parent ∉ seen) (hd : t.class? parent = some d) :
    t.nextClass? seen c = some d := by
  rw [nextClass?, hparent]
  simp only [List.contains_eq_mem, decide_eq_true_eq, if_neg hnew]
  exact hd

/-- A walk ends where there is no parent, where it came through its name, or where no class has
that name. -/
theorem nextClass?_eq_none {seen : List String} {c : ClassEntry} (hend : ∀ parent,
    c.parent = some parent → parent ∈ seen ∨ ∀ d ∈ t.classes, d.name ≠ parent) :
    t.nextClass? seen c = none := by
  unfold nextClass?
  split
  · rfl
  · next parent hparent =>
    split
    · rfl
    · next hnew =>
      have hnew : parent ∉ seen := by simpa using hnew
      exact class?_eq_none_iff.mpr ((hend parent hparent).resolve_left hnew)

theorem ascend_succ {name parent : String} {c : ClassEntry} (hc : t.class? name = some c)
    (hparent : c.parent = some parent) (n : Nat) :
    t.ascend (n + 1) name = t.ascend n parent := by
  rw [ascend, hc, Option.bind_some, hparent, Option.bind_some]

/-- A class that is met stands under its own name. -/
theorem class?_of_ascend {n : Nat} {name : String} {c : ClassEntry}
    (hc : t.ascend n name = some c) : t.class? c.name = some c := by
  induction n generalizing name with
  | zero => rwa [name_of_class? hc]
  | succ n ih =>
    rw [ascend, Option.bind_eq_some_iff] at hc
    obtain ⟨d, -, hd⟩ := hc
    obtain ⟨parent, -, hrest⟩ := Option.bind_eq_some_iff.mp hd
    exact ih hrest

theorem ascend_add {m : Nat} {name : String} {c : ClassEntry} (hc : t.ascend m name = some c)
    (n : Nat) : t.ascend (m + n) name = t.ascend n c.name := by
  induction m generalizing name with
  | zero => rw [Nat.zero_add, name_of_class? hc]
  | succ m ih =>
    rw [ascend, Option.bind_eq_some_iff] at hc
    obtain ⟨d, hd, hrest⟩ := hc
    obtain ⟨parent, hparent, hrest⟩ := Option.bind_eq_some_iff.mp hrest
    rw [Nat.add_right_comm, ascend_succ hd hparent, ih hrest]

/-- Every step before the last one met a class. -/
theorem exists_ascend_of_le {i n : Nat} {name : String} {c : ClassEntry}
    (hc : t.ascend n name = some c) (hi : i ≤ n) : ∃ d, t.ascend i name = some d := by
  induction i generalizing n name with
  | zero =>
    cases n with
    | zero => exact ⟨c, hc⟩
    | succ n =>
      rw [ascend, Option.bind_eq_some_iff] at hc
      exact hc.imp fun _ hd => hd.1
  | succ i ih =>
    cases n with
    | zero => omega
    | succ n =>
      rw [ascend, Option.bind_eq_some_iff] at hc
      obtain ⟨d, hd, hrest⟩ := hc
      obtain ⟨parent, hparent, hrest⟩ := Option.bind_eq_some_iff.mp hrest
      rw [ascend_succ hd hparent]
      exact ih hrest (by omega)

namespace Owns
variable {name : String} {n : Nat} {owner : ClassEntry}

/-- No class is met twice on the way to the owner. -/
theorem ascend_ne (h : t.Owns name n owner) {i j : Nat} (hij : i < j) (hj : j ≤ n) :
    t.ascend i name ≠ t.ascend j name := by
  intro heq
  obtain ⟨c, hc⟩ := exists_ascend_of_le h.met hj
  -- From the second visit it is as far to the owner as from the first one.
  have hshort : t.ascend (i + (n - j)) name = some owner := by
    rw [ascend_add (heq.trans hc), ← ascend_add hc, Nat.add_sub_cancel' hj]
    exact h.met
  have hnone := h.nearest (i + (n - j)) (by omega) owner hshort
  have hfilled := h.filled
  rw [hnone] at hfilled
  cases hfilled

/-- The owner is met within as many steps as there are classes. -/
theorem lt_length (h : t.Owns name n owner) : n < t.classes.length := by
  have hnodup : ((List.range (n + 1)).map fun i => t.ascend i name).Nodup := by
    refine List.Nodup.map_on (fun i hi j hj heq => ?_) List.nodup_range
    rw [List.mem_range] at hi hj
    by_contra hne
    rcases Nat.lt_or_gt_of_ne hne with hlt | hgt
    · exact h.ascend_ne hlt (by omega) heq
    · exact h.ascend_ne hgt (by omega) heq.symm
  have hsub : ((List.range (n + 1)).map fun i => t.ascend i name) ⊆ t.classes.map some := by
    intro found hfound
    obtain ⟨i, hi, rfl⟩ := List.mem_map.mp hfound
    rw [List.mem_range] at hi
    obtain ⟨c, hc⟩ := exists_ascend_of_le h.met (Nat.le_of_lt_succ hi)
    simp only [hc]
    exact List.mem_map_of_mem (mem_of_class? (class?_of_ascend hc))
  have hle := (List.subperm_of_subset hnodup hsub).length_le
  simp only [List.length_map, List.length_range] at hle
  exact hle

theorem succ {c : ClassEntry} {parent : String} (hc : t.class? name = some c)
    (hempty : c.vtable = none) (hparent : c.parent = some parent)
    (h : t.Owns parent n owner) : t.Owns name (n + 1) owner where
  met := (ascend_succ hc hparent n).trans h.met
  filled := h.filled
  nearest i hi d hd := by
    cases i with
    | zero =>
      obtain rfl : c = d := Option.some.inj (hc.symm.trans hd)
      exact hempty
    | succ i => exact h.nearest i (by omega) d ((ascend_succ hc hparent i).symm.trans hd)

/-- The way to the owner goes on at the parent. -/
theorem above {c : ClassEntry} (hc : t.class? name = some c) (h : t.Owns name (n + 1) owner) :
    ∃ parent, c.parent = some parent ∧ t.Owns parent n owner := by
  have hmet := h.met
  rw [ascend, hc, Option.bind_some, Option.bind_eq_some_iff] at hmet
  obtain ⟨parent, hparent, hrest⟩ := hmet
  exact ⟨parent, hparent, hrest, h.filled, fun i hi d hd =>
    h.nearest (i + 1) (by omega) d ((ascend_succ hc hparent i).trans hd)⟩

end Owns

section Walk

/-- The walk upward finds the first vtable above. -/
theorem exists_owns_of_ownerFrom? {steps : Nat} {seen : List String} {c owner : ClassEntry}
    (hc : t.class? c.name = some c) (hfound : t.ownerFrom? steps seen c = some owner) :
    ∃ n, t.Owns c.name n owner := by
  induction steps generalizing seen c with
  | zero => cases hfound
  | succ steps ih =>
    rw [ownerFrom?] at hfound
    split at hfound
    · next hfilled =>
      obtain rfl := Option.some.inj hfound
      exact ⟨0, hc, hfilled, fun i hi => absurd hi (Nat.not_lt_zero i)⟩
    · next hempty =>
      obtain ⟨d, hd, hrest⟩ := Option.bind_eq_some_iff.mp hfound
      rw [nextClass?] at hd
      split at hd
      · cases hd
      · next parent hparent =>
        split at hd
        · cases hd
        · have hname := name_of_class? hd
          obtain ⟨n, hn⟩ := ih (by rwa [hname]) hrest
          rw [hname] at hn
          exact ⟨n + 1, hn.succ hc (by simpa using hempty) hparent⟩

/-- If there is a vtable above that the walk can reach, it is found. -/
theorem ownerFrom?_of_owns {steps n : Nat} {seen : List String} {c owner : ClassEntry}
    (hc : t.class? c.name = some c) (howns : t.Owns c.name n owner) (hn : n < steps)
    (hfresh : ∀ i ≤ n, ∀ d, t.ascend i c.name = some d → d.name ∉ seen) :
    t.ownerFrom? steps seen c = some owner := by
  induction n generalizing steps seen c with
  | zero =>
    obtain ⟨steps, rfl⟩ : ∃ k, steps = k + 1 := ⟨steps - 1, by omega⟩
    obtain rfl : c = owner := Option.some.inj (hc.symm.trans howns.met)
    rw [ownerFrom?, if_pos howns.filled]
  | succ n ih =>
    obtain ⟨steps, rfl⟩ : ∃ k, steps = k + 1 := ⟨steps - 1, by omega⟩
    have hempty : c.vtable = none := howns.nearest 0 (by omega) c hc
    obtain ⟨parent, hparent, habove⟩ := howns.above hc
    obtain ⟨d, hd⟩ := exists_ascend_of_le habove.met (Nat.zero_le n)
    have hname : d.name = parent := name_of_class? hd
    -- No class further up is the one the walk stands at.
    have hother : ∀ i ≤ n, ∀ e, t.ascend i parent = some e → e.name ∉ c.name :: seen := by
      intro i hi e he
      rw [← ascend_succ hc hparent] at he
      rw [List.mem_cons, not_or]
      refine ⟨fun heq => ?_, hfresh (i + 1) (by omega) e he⟩
      have hself := class?_of_ascend he
      rw [heq, hc, Option.some.injEq] at hself
      subst hself
      exact howns.ascend_ne (Nat.succ_pos i) (by omega) (Eq.trans hc he.symm)
    have hnew : parent ∉ c.name :: seen := hname ▸ hother 0 (Nat.zero_le n) d hd
    rw [ownerFrom?, hempty, nextClass?_eq_some hparent hnew hd, if_neg (by simp), Option.bind_some]
    refine ih (by rwa [hname]) (by rwa [hname]) (by omega) ?_
    rwa [hname]

theorem vtableOwner_eq_ok_iff {name : String} {owner : ClassEntry} :
    t.vtableOwner name = .ok owner ↔ ∃ n, t.Owns name n owner := by
  unfold vtableOwner
  constructor
  · intro hfound
    split at hfound
    · cases hfound
    · next c hc =>
      split at hfound
      · cases hfound
      · next found howner =>
        obtain rfl := Except.ok.inj hfound
        have hname := name_of_class? hc
        have howns := exists_owns_of_ownerFrom? (by rwa [hname]) howner
        rwa [hname] at howns
  · rintro ⟨n, howns⟩
    obtain ⟨c, hc⟩ := exists_ascend_of_le howns.met (Nat.zero_le n)
    have hc : t.class? name = some c := hc
    have hname := name_of_class? hc
    have hfound : t.ownerFrom? t.classes.length [] c = some owner :=
      ownerFrom?_of_owns (by rwa [hname]) (by rwa [hname]) howns.lt_length
        fun _ _ _ _ => List.not_mem_nil
    simp only [hc, hfound]

theorem vtableOwner_eq_unknownClass_iff {name : String} :
    t.vtableOwner name = .error (.unknownClass name) ↔ t.class? name = none := by
  unfold vtableOwner
  split
  · next hnone => simp [hnone]
  · next c hc => split <;> simp [hc]

/-- A class that has no owner is unknown or has no vtable above. -/
theorem vtableOwner_of_no_owner {name : String} (hnone : ∀ n owner, ¬ t.Owns name n owner)
    {c : ClassEntry} (hc : t.class? name = some c) :
    t.vtableOwner name = .error (.noVtable name) := by
  cases hfound : t.vtableOwner name with
  | ok owner =>
    obtain ⟨n, howns⟩ := vtableOwner_eq_ok_iff.mp hfound
    exact absurd howns (hnone n owner)
  | error e =>
    unfold vtableOwner at hfound
    simp only [hc] at hfound
    split at hfound
    · exact hfound.symm
    · cases hfound

/-- A class that is missing from the documents is not shown. -/
theorem effectiveVtable_of_class?_eq_none {name : String} (hnone : t.class? name = none) :
    t.effectiveVtable name = .error (.unknownClass name) := by
  rw [effectiveVtable, vtableOwner_eq_unknownClass_iff.mpr hnone]
  rfl

/-- Where no class on the way up has a vtable there is nothing to show. -/
theorem effectiveVtable_of_no_owner {name : String} (hnone : ∀ n owner, ¬ t.Owns name n owner)
    {c : ClassEntry} (hc : t.class? name = some c) :
    t.effectiveVtable name = .error (.noVtable name) := by
  rw [effectiveVtable, vtableOwner_of_no_owner hnone hc]
  rfl

end Walk

/-- The methods of slots depend on the look-up of prototypes only. -/
theorem methodsFrom_eq_of_prototype?_eq {t' : ExportedTables}
    (hsame : ∀ id, t'.prototype? id = t.prototype? id) (owner : String) (slotIndex : Nat)
    (slots : List VtableSlot) :
    t'.methodsFrom owner slotIndex slots = t.methodsFrom owner slotIndex slots := by
  induction slots generalizing slotIndex with
  | nil => rfl
  | cons slot slots ih => rw [methodsFrom, methodsFrom, ih, hsame]

/-- The methods of slots that all have their prototypes. -/
theorem exists_methodsFrom {owner : String} {slots : List VtableSlot} (slotIndex : Nat)
    (hall : ∀ slot ∈ slots, ∃ p, t.prototype? slot.id = some p) :
    ∃ methods, t.methodsFrom owner slotIndex slots = .ok methods ∧
      methods.length = slots.length ∧ ∀ j method, methods[j]? = some method →
        ∃ slot, slots[j]? = some slot ∧ method.slotIndex = slotIndex + j ∧
          t.prototype? slot.id = some method.prototype ∧
          method.mangledName = slot.mangledName := by
  induction slots generalizing slotIndex with
  | nil => exact ⟨[], rfl, rfl, by simp⟩
  | cons slot rest ih =>
    obtain ⟨p, hp⟩ := hall slot List.mem_cons_self
    obtain ⟨methods, hmethods, hlength, hrest⟩ :=
      ih (slotIndex + 1) fun other hother => hall other (List.mem_cons_of_mem _ hother)
    refine ⟨⟨slotIndex, p, slot.mangledName⟩ :: methods, ?_, by simp [hlength], ?_⟩
    · simp only [methodsFrom, hp, hmethods]
      rfl
    · intro j method hmethod
      cases j with
      | zero =>
        obtain rfl := Option.some.inj hmethod
        exact ⟨slot, rfl, rfl, hp, rfl⟩
      | succ j =>
        obtain ⟨other, hother, hindex, hdetails⟩ := hrest j method hmethod
        exact ⟨other, hother, by omega, hdetails⟩

section Forms
variable {form : ClassEntry → ClassEntry}

theorem isSome_vtable_of_slots {c d : ClassEntry} (hslots : c.slots = d.slots) :
    c.vtable.isSome = d.vtable.isSome := by
  have h := congrArg Option.isSome hslots
  rwa [ClassEntry.slots, ClassEntry.slots, Option.isSome_map, Option.isSome_map] at h

section Map
variable (hname : ∀ c, (form c).name = c.name) (classes : List ClassEntry)
  (prototypes : List Prototype)
include hname

theorem class?_map (name : String) : (ExportedTables.mk (classes.map form) prototypes).class? name =
    ((ExportedTables.mk classes prototypes).class? name).map form := by
  simp only [class?, List.find?_map, Function.comp_def, hname]

variable (hparent : ∀ c, (form c).parent = c.parent) (hslots : ∀ c, (form c).slots = c.slots)
include hparent

theorem nextClass?_map (seen : List String) (c : ClassEntry) :
    (ExportedTables.mk (classes.map form) prototypes).nextClass? seen (form c) =
      ((ExportedTables.mk classes prototypes).nextClass? seen c).map form := by
  unfold nextClass?
  rw [hparent]
  cases c.parent with
  | none => rfl
  | some parent =>
    simp only [class?_map hname]
    split <;> rfl

include hslots

theorem ownerFrom?_map (steps : Nat) (seen : List String) (c : ClassEntry) :
    (ExportedTables.mk (classes.map form) prototypes).ownerFrom? steps seen (form c) =
      ((ExportedTables.mk classes prototypes).ownerFrom? steps seen c).map form := by
  induction steps generalizing seen c with
  | zero => rfl
  | succ steps ih =>
    rw [ownerFrom?, ownerFrom?, isSome_vtable_of_slots (hslots c), hname,
      nextClass?_map hname classes prototypes hparent]
    split
    · rfl
    · cases (ExportedTables.mk classes prototypes).nextClass? (c.name :: seen) c with
      | none => rfl
      | some d => exact ih _ d

theorem vtableOwner_map (name : String) :
    (ExportedTables.mk (classes.map form) prototypes).vtableOwner name =
      ((ExportedTables.mk classes prototypes).vtableOwner name).map form := by
  unfold vtableOwner
  rw [class?_map hname, List.length_map]
  cases (ExportedTables.mk classes prototypes).class? name with
  | none => rfl
  | some c =>
    simp only [Option.map_some, ownerFrom?_map hname classes prototypes hparent hslots]
    cases (ExportedTables.mk classes prototypes).ownerFrom? classes.length [] c with
    | none => rfl
    | some owner => rfl

/-- Effective vtables depend on the names, the parents and the slots of classes only. -/
theorem effectiveVtable_map (name : String) :
    (ExportedTables.mk (classes.map form) prototypes).effectiveVtable name =
      (ExportedTables.mk classes prototypes).effectiveVtable name := by
  have hmethods := @methodsFrom_eq_of_prototype?_eq ⟨classes, prototypes⟩
    ⟨classes.map form, prototypes⟩ fun _ => rfl
  rw [effectiveVtable, effectiveVtable, vtableOwner_map hname classes prototypes hparent hslots]
  cases (ExportedTables.mk classes prototypes).vtableOwner name with
  | error e => rfl
  | ok owner =>
    simp only [Except.map, bind, Except.bind, hname, hslots, hmethods]

end Map

end Forms

end ExportedTables

end VtableMerge
