import VtableMerge.Proofs.Accord
import VtableMerge.Proofs.Reordering

/-!
Where the linked classes agree about every slot, the order of the classes and of the resolved
names does not show in the prototypes: each has what any of its classes knows, and nothing is
reported as a conflict.
-/
namespace VtableMerge.Merge

/-- All that is told about a slot agrees, for every slot that has a prototype. -/
def Accordant (h : Hierarchy) (store : ObservationStore) (s : State) : Prop :=
  ∀ p ∈ s.table.prototypes, ∀ a ∈ contributions h store s p.declaringClass p.slotIndex,
    ∀ b ∈ contributions h store s p.declaringClass p.slotIndex, a.Accords b

instance (h : Hierarchy) (store : ObservationStore) (s : State) :
    Decidable (Accordant h store s) := List.decidableBAll _ _

variable {h h' : Hierarchy} {store : ObservationStore} {s t : State}

section Conflicts
variable {slotIndex : Nat}

/-- A fold of agreeing observations meets no conflict. -/
theorem foldl_enrichBy_conflicts {told : List Signature} {folded : Prototype × Diagnostics}
    (hfolded : Gathers told folded.1.toSignature) {names : List String}
    (haccord : ∀ a ∈ told ++ names.flatMap (toldAt store slotIndex),
      ∀ b ∈ told ++ names.flatMap (toldAt store slotIndex), a.Accords b) :
    (names.foldl (enrichBy store slotIndex) folded).2 = folded.2 := by
  induction names generalizing told folded with
  | nil => rfl
  | cons name names ih =>
    rw [List.flatMap_cons, ← List.append_assoc] at haccord
    rw [List.foldl_cons, ih (gathers_enrichBy hfolded name) haccord]
    cases ho : store.slot? name slotIndex with
    | none => rw [enrichBy, ho]
    | some o =>
      have htold : toldAt store slotIndex name = o.told := by rw [toldAt, ho]
      rw [htold] at haccord
      have hnone := hfolded.enrich_conflicts_eq_nil (o := o) (fun a ha b hb =>
        haccord a (by simp [ha]) b (by simp [hb])) name slotIndex
      rw [enrichBy, ho]
      simp only [hnone, List.append_nil]

theorem conflicts_eq_nil_of_accordant (hs : Coherent h store s) {order : List String}
    (hf : FoldsInto h store s order) (haccord : Accordant h store s) :
    s.diagnostics.conflicts = [] := by
  have hnone : s.table.prototypes.flatMap (refoldConflicts h store s order) = [] := by
    refine List.flatMap_eq_nil_iff.mpr fun p hp => ?_
    obtain ⟨o, conflicts, ho, hend⟩ := hf.exists_fold hp
    let start : Prototype × Diagnostics :=
      (Prototype.declared p.id p.declaringClass p.slotIndex o, [])
    have hstart : Gathers o.told start.1.toSignature := Gathers.ofObservation o
    have hmem := hf.mem_contributions_iff hs hp ho
    have hfold := foldl_enrichBy_conflicts hstart fun a ha b hb =>
      haccord p hp a ((hmem a).mp ha) b ((hmem b).mp hb)
    rw [refoldConflicts, refold, ho]
    exact hfold
  have hperm := hf.conflicts
  rw [hnone] at hperm
  exact hperm.eq_nil

/-- The two kinds of findings about disagreeing observations. -/
theorem Diagnostics.kind_ne_of_conflicts_eq_nil {ds : Diagnostics} (hds : ds.conflicts = [])
    {d : Diagnostic} (hd : d ∈ ds) :
    d.kind ≠ .nameMismatch ∧ d.kind ≠ .parameterCountMismatch := by
  have hcategory := List.filter_eq_nil_iff.mp hds d hd
  constructor
  · intro hkind
    exact hcategory (by rw [hkind]; rfl)
  · intro hkind
    exact hcategory (by rw [hkind]; rfl)

end Conflicts

section Declared

theorem findDeclared?_eq_some_iff (hs : Coherent h store s) {className : String}
    {slotIndex : Nat} {p : Prototype} :
    s.table.findDeclared? className slotIndex = some p ↔
      p ∈ s.table.prototypes ∧ p.declaringClass = className ∧ p.slotIndex = slotIndex := by
  constructor
  · intro hfound
    have hdeclared := List.find?_some hfound
    simp only [Bool.and_eq_true, beq_iff_eq] at hdeclared
    exact ⟨List.mem_of_find?_eq_some hfound, hdeclared⟩
  · rintro ⟨hp, rfl, rfl⟩
    have hfound : (s.table.findDeclared? p.declaringClass p.slotIndex).isSome = true := by
      simp only [PrototypeTable.findDeclared?, List.find?_isSome]
      exact ⟨p, hp, by simp⟩
    obtain ⟨q, hq⟩ := Option.isSome_iff_exists.mp hfound
    have hdeclared := List.find?_some hq
    simp only [Bool.and_eq_true, beq_iff_eq] at hdeclared
    have hsame : q = p := List.inj_on_of_nodup_map hs.nodup_declared
      (List.mem_of_find?_eq_some hq) hp (Prod.ext hdeclared.1 hdeclared.2)
    rw [hq, hsame]

/-- Two complete merges of agreeing observations have the same prototypes, up to their numbers,
the mangled names and the names of parameters. -/
theorem Complete.outline_findDeclared? (hs : Complete h store s) (ht : Complete h store t)
    {order order' : List String} (hf : FoldsInto h store s order)
    (hf' : FoldsInto h store t order') (haccord : Accordant h store s) (className : String)
    (slotIndex : Nat) :
    (t.table.findDeclared? className slotIndex).map (fun p => p.outline) =
      (s.table.findDeclared? className slotIndex).map fun p => p.outline := by
  cases hp : s.table.findDeclared? className slotIndex with
  | none =>
    cases hq : t.table.findDeclared? className slotIndex with
    | none => rfl
    | some q =>
      obtain ⟨hmem, hclass, hindex⟩ := (findDeclared?_eq_some_iff ht.coherent).mp hq
      obtain ⟨p, hpmem, hpclass, hpindex⟩ := ht.exists_declared hs hmem
      rw [(findDeclared?_eq_some_iff hs.coherent).mpr
        ⟨hpmem, hpclass.trans hclass, hpindex.trans hindex⟩] at hp
      cases hp
  | some p =>
    obtain ⟨hmem, hclass, hindex⟩ := (findDeclared?_eq_some_iff hs.coherent).mp hp
    obtain ⟨q, hqmem, hqclass, hqindex⟩ := hs.exists_declared ht hmem
    have hq := (findDeclared?_eq_some_iff ht.coherent).mpr
      ⟨hqmem, hqclass.trans hclass, hqindex.trans hindex⟩
    have hknown := gathers_contributions hs.coherent hf hmem
    have hother := gathers_contributions ht.coherent hf' hqmem
    rw [hqclass, hqindex, ← hs.contributions_eq ht] at hother
    rw [hq, Option.map_some, Option.map_some, hknown.outline_eq (haccord p hmem) hother]

theorem Complete.accordant (hs : Complete h store s) (ht : Complete h store t)
    (haccord : Accordant h store s) : Accordant h store t := by
  intro q hq
  obtain ⟨p, hp, hclass, hindex⟩ := ht.exists_declared hs hq
  rw [← hclass, ← hindex, ← hs.contributions_eq ht]
  exact haccord p hp

end Declared

/-- Let the linked classes agree about every slot in one merge that settles all classes. Then any
other merge that settles them, with the classes and the names in any order, declares the same
slots, gives their prototypes the same names, return types and parameter types, which are the
ones that any linked class knows, and finds no conflict. -/
theorem findDeclared?_resolveAll_of_accordant {names names' : List String}
    (hperm : h'.nodes.Perm h.nodes) (hcover : ∀ c ∈ h.nodes, c.name ∈ names)
    (hcover' : ∀ c ∈ h.nodes, c.name ∈ names')
    (hbound : (resolveAll h store names).table.size < 2 ^ 32)
    (haccord : Accordant h store (resolveAll h store names)) :
    (∀ className slotIndex,
      ((resolveAll h' store names').table.findDeclared? className slotIndex).map
          (fun p => p.outline) =
        ((resolveAll h store names).table.findDeclared? className slotIndex).map
          fun p => p.outline) ∧
    (∀ p ∈ (resolveAll h' store names').table.prototypes,
      ∀ told ∈ contributions h' store (resolveAll h' store names') p.declaringClass p.slotIndex,
        p.Covers told) ∧
    ∀ d ∈ (resolveAll h' store names').diagnostics,
      d.kind ≠ .nameMismatch ∧ d.kind ≠ .parameterCountMismatch := by
  have hs := complete_resolveAll hcover hbound
  have hbound' : (resolveAll h store names').table.size < 2 ^ 32 :=
    Nat.lt_of_le_of_lt (hs.size_le_of_leads hbound (leads_resolveAll names')) hbound
  have ht := complete_resolveAll hcover' hbound'
  have hf := foldsInto_of_leads (@leads_resolveAll h store names) hbound
  have hf' := foldsInto_of_leads (@leads_resolveAll h store names') hbound'
  have haccord' := hs.accordant ht haccord
  rw [resolveAll_eq_of_sameLinks (Hierarchy.sameLinks_of_perm hperm)]
  refine ⟨hs.outline_findDeclared? ht hf hf' haccord, fun p hp told htold => ?_, fun d hd => ?_⟩
  · rw [(contributions_perm hperm _ _ _).mem_iff] at htold
    exact (gathers_contributions ht.coherent hf' hp).covers (haccord' p hp) htold
  · exact Diagnostics.kind_ne_of_conflicts_eq_nil
      (conflicts_eq_nil_of_accordant ht.coherent hf' haccord') hd

/-- Observations of the small forest that agree: Disk knows the name of the first slot, Tape its
return type and the second of its parameters, Device the first one. -/
def accordantStore : ObservationStore :=
  ⟨[("Device", ⟨"a", [{ Observation.concrete 0 "" with
        parameters := [Param.ofType "int", Param.unknown] }, .pureVirtual 1]⟩),
    ("Disk", ⟨"a", [.concrete 0 "open", .concrete 1 "read", .concrete 2 "seek"]⟩),
    ("Tape", ⟨"b", [{ Observation.concrete 0 "" with
        returnType := "bool"
        parameters := [Param.unknown, Param.ofType "char"] }, .concrete 1 "read"]⟩),
    ("Shade", ⟨"b", [.concrete 0 "dim"]⟩)]⟩

/-- Tape before Disk or after it, the slot of Device gets the name from the one and the return type
from the other. -/
theorem findDeclared?_resolveAll_of_accordant_sample :
    (resolveAll sampleHierarchy accordantStore
        (sampleHierarchy.nodes.map ClassNode.name)).table.size < 2 ^ 32 ∧
      Accordant sampleHierarchy accordantStore
        (resolveAll sampleHierarchy accordantStore (sampleHierarchy.nodes.map ClassNode.name)) ∧
      ((resolveAll reversedHierarchy accordantStore
          (reversedHierarchy.nodes.map ClassNode.name)).table.findDeclared? "Device" 0).map
            (fun p => p.outline) = some ("open", "bool", ["int", "char"]) ∧
      ∀ d ∈ (resolveAll reversedHierarchy accordantStore
          (reversedHierarchy.nodes.map ClassNode.name)).diagnostics,
        d.kind ≠ .nameMismatch ∧ d.kind ≠ .parameterCountMismatch := by
  have hbound : (resolveAll sampleHierarchy accordantStore
      (sampleHierarchy.nodes.map ClassNode.name)).table.size < 2 ^ 32 := by decide
  have haccord : Accordant sampleHierarchy accordantStore
      (resolveAll sampleHierarchy accordantStore (sampleHierarchy.nodes.map ClassNode.name)) := by
    decide
  obtain ⟨hsame, -, hnone⟩ := @findDeclared?_resolveAll_of_accordant sampleHierarchy
    reversedHierarchy accordantStore (sampleHierarchy.nodes.map ClassNode.name)
    (reversedHierarchy.nodes.map ClassNode.name) (List.reverse_perm sampleHierarchy.nodes)
    (by decide) (by decide) hbound haccord
  exact ⟨hbound, haccord, (hsame "Device" 0).trans (by decide), hnone⟩

end VtableMerge.Merge
