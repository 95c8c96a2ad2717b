import VtableMerge.Proofs.Findings
import VtableMerge.Proofs.ShownMerges

/-!
The report of a merge and its documents. The counts are taken at the end from what became of the
classes, while the findings were recorded on the way down the hierarchy. They agree because the
findings are blocks, one for each settled class: the block of a failed class has one finding about
integrity and no other block has any, and a missing parent stands in the block of each observed
class that has none. The passes over the prototypes count what they change.
-/
namespace VtableMerge

def Hierarchy.lacksParent (h : Hierarchy) (parent : Option String) : Bool :=
  parent.any fun name => !h.contains name

theorem Diagnostics.countOf_append (ds es : Diagnostics) (kind : DiagnosticKind) :
    Diagnostics.countOf (ds ++ es) kind = ds.countOf kind + es.countOf kind :=
  List.countP_append

/-- Entries counted block by block, where each block has one of them or none. -/
theorem countP_flatMap_eq_countP {α β : Type} {l : List α} {block : α → List β}
    {p : β → Bool} {q : α → Bool}
    (hblock : ∀ a ∈ l, (block a).countP p = if q a then 1 else 0) :
    (l.flatMap block).countP p = l.countP q := by
  induction l with
  | nil => rfl
  | cons a l ih =>
    have hrest := ih fun b hb => hblock b (List.mem_cons_of_mem a hb)
    rw [List.flatMap_cons, List.countP_append, List.countP_cons, hrest,
      hblock a List.mem_cons_self, Nat.add_comm]

namespace Merge
variable {h : Hierarchy} {store : ObservationStore} {s : State} {c : ClassNode}

theorem isResolvedIn_eq (s : State) (c : ClassNode) : isResolvedIn s c = s.isResolved c.name := by
  unfold isResolvedIn State.isResolved State.vtable?
  cases s.outcome? c.name with
  | none => rfl
  | some o => cases o <;> rfl

/-- Each class comes to one of three ends. -/
theorem countP_ends (s : State) (nodes : List ClassNode) :
    nodes.length = nodes.countP (isResolvedIn s) +
      nodes.countP (fun c => !isResolvedIn s c && !isFailedIn s c) +
      nodes.countP (isFailedIn s) := by
  induction nodes with
  | nil => rfl
  | cons c nodes ih =>
    have hboth : isResolvedIn s c = true → isFailedIn s c = false := by
      intro hresolved
      rw [isResolvedIn_eq, isResolved_iff_outcome?] at hresolved
      obtain ⟨slots, ho⟩ := hresolved
      simp [isFailedIn, ho]
    rw [List.length_cons, List.countP_cons, List.countP_cons, List.countP_cons, ih]
    cases hresolved : isResolvedIn s c with
    | true =>
      rw [hboth hresolved]
      simp only [Bool.not_true, Bool.false_and, Bool.false_eq_true, if_true, if_false]
      omega
    | false =>
      cases isFailedIn s c with
      | true =>
        simp only [Bool.not_true, Bool.and_false, Bool.false_eq_true, if_true, if_false]
        omega
      | false =>
        simp only [Bool.not_false, Bool.true_and, Bool.false_eq_true, if_true, if_false]
        omega

section Blocks
variable {inherited : Nat} {o : Outcome} {found : Diagnostics}

theorem kind_of_mem_rootFindings {d : Diagnostic} (hd : d ∈ rootFindings h c) :
    d.kind = .missingParent ∧ d.category = .hierarchy := by
  rcases rootFindings_cases h c with hnil | ⟨parent, -, -, hsome⟩
  · rw [hnil] at hd
    cases hd
  · rw [hsome, List.mem_singleton] at hd
    rw [hd]
    exact ⟨rfl, rfl⟩

theorem length_rootFindings (h : Hierarchy) (c : ClassNode) :
    (rootFindings h c).length = if h.lacksParent c.parent then 1 else 0 := by
  unfold rootFindings Hierarchy.lacksParent
  cases c.parent with
  | none => rfl
  | some parent =>
    cases hinside : h.contains parent with
    | true => simp [hinside]
    | false => simp [hinside]

/-- A failure is one finding about integrity, and nothing else is. -/
theorem Tells.countP_integrity (htells : Tells h c inherited o found) :
    found.countP (fun d => d.category == .integrity) = if o = .failed then 1 else 0 := by
  cases htells with
  | unobserved => rfl
  | failed kind detail hkind hroot => simp [Diagnostic.ofClass, hkind]
  | resolved slots conflicts hconflicts =>
    rw [if_neg (by simp), List.countP_eq_zero]
    intro d hd
    rcases List.mem_append.mp hd with hroot | hconflict
    · rw [(kind_of_mem_rootFindings hroot).2]
      decide
    · rw [(hconflicts.about d hconflict).2]
      decide

/-- A parent is found missing once, by a class that is observed. -/
theorem Tells.countOf_missingParent (htells : Tells h c inherited o found) :
    found.countOf .missingParent =
      if o = .unobserved then 0 else if h.lacksParent c.parent then 1 else 0 := by
  rw [← length_rootFindings]
  cases htells with
  | unobserved => rfl
  | failed kind detail hkind hroot =>
    have hne : kind ≠ .missingParent := by
      rintro rfl
      cases hkind
    simp [Diagnostics.countOf, Diagnostic.ofClass, hroot, hne]
  | resolved slots conflicts hconflicts =>
    have hroots : (rootFindings h c).countOf .missingParent = (rootFindings h c).length := by
      apply List.countP_eq_length.mpr
      intro d hd
      rw [(kind_of_mem_rootFindings hd).1]
      rfl
    have hnone : Diagnostics.countOf conflicts .missingParent = 0 := by
      apply List.countP_eq_zero.mpr
      intro d hd
      rcases hconflicts.kind d hd with hkind | hkind
      · rw [hkind]
        decide
      · rw [hkind]
        decide
    rw [Diagnostics.countOf_append, hroots, hnone]
    rfl

end Blocks

structure Finished (h : Hierarchy) (store : ObservationStore) (s : State) : Prop where
  blocks : Blocks h store s
  accounted : Accounted h store s
  settled : ∀ c ∈ h.nodes, (s.outcome? c.name).isSome = true

theorem finished_resolveAll (h : Hierarchy) (store : ObservationStore) :
    Finished h store (resolveAll h store (h.nodes.map ClassNode.name)) where
  blocks := blocks_of_leads (leads_resolveAll _)
  accounted := accounted_of_leads (leads_resolveAll _)
  settled c hc := by
    apply resolveAll_outcome?_isSome (List.mem_map_of_mem hc)
    exact h.contains_iff_exists.mpr ⟨c, h.get?_of_mem hc⟩

namespace Finished

/-- What became of a class, and the findings about it. -/
theorem exists_told (hs : Finished h store s) (hc : c ∈ h.nodes) :
    ∃ o, s.outcome? c.name = some o ∧
      Tells h c (s.parentVtable c).length o (s.diagnostics.forClass c.name) := by
  obtain ⟨o, ho⟩ := Option.isSome_iff_exists.mp (hs.settled c hc)
  exact ⟨o, ho, hs.blocks.told c o (h.get?_of_mem hc) ho⟩

theorem perm_settled (hs : Finished h store s) :
    s.settled.Perm (h.nodes.map ClassNode.name) := by
  apply (List.perm_ext_iff_of_nodup hs.blocks.nodup h.distinct).mpr
  intro name
  rw [← h.contains_iff_mem_names]
  constructor
  · exact hs.blocks.known name
  · intro hname
    obtain ⟨c, hc⟩ := h.contains_iff_exists.mp hname
    obtain rfl := h.name_of_get? hc
    exact mem_settled.mpr (hs.settled c (h.mem_of_get? hc))

theorem unobserved_eq (hs : Finished h store s) (hc : c ∈ h.nodes) :
    (!isResolvedIn s c && !isFailedIn s c) = !store.contains c.name := by
  obtain ⟨o, ho⟩ := Option.isSome_iff_exists.mp (hs.settled c hc)
  have hobs := hs.accounted.unobserved_iff c.name o ho
  cases o with
  | resolved slots =>
    have hcontains : store.contains c.name = true := by simpa using hobs
    simp [isResolvedIn, ho, hcontains]
  | unobserved =>
    have hcontains : store.contains c.name = false := by simpa using hobs
    simp [isResolvedIn, isFailedIn, ho, hcontains]
  | failed =>
    have hcontains : store.contains c.name = true := by simpa using hobs
    simp [isFailedIn, ho, hcontains]

/-- Whatever is found is about a class of the hierarchy. -/
theorem exists_class (hs : Finished h store s) {d : Diagnostic} (hd : d ∈ s.diagnostics) :
    ∃ c ∈ h.nodes, c.name = d.className := by
  rw [hs.blocks.joined, List.mem_flatMap] at hd
  obtain ⟨name, hname, hd⟩ := hd
  obtain ⟨c, hc⟩ := h.contains_iff_exists.mp (hs.blocks.known name hname)
  refine ⟨c, h.mem_of_get? hc, ?_⟩
  rw [h.name_of_get? hc, (Diagnostics.mem_forClass.mp hd).2]

/-- There are as many findings about integrity as failed classes. -/
theorem countP_integrity (hs : Finished h store s) :
    h.nodes.countP (isFailedIn s) =
      s.diagnostics.countP fun d => d.category == .integrity := by
  have hblock : ∀ name ∈ s.settled,
      (s.diagnostics.forClass name).countP (fun d => d.category == .integrity) =
        if s.outcome? name == some .failed then 1 else 0 := by
    intro name hname
    obtain ⟨o, ho⟩ := Option.isSome_iff_exists.mp (mem_settled.mp hname)
    obtain ⟨c, -, -, htells⟩ := hs.blocks.exists_told ho
    rw [htells.countP_integrity, ho]
    simp
  calc
    h.nodes.countP (isFailedIn s) =
        (h.nodes.map ClassNode.name).countP fun name => s.outcome? name == some .failed := by
      rw [List.countP_map]
      rfl
    _ = s.settled.countP fun name => s.outcome? name == some .failed :=
      (hs.perm_settled.countP_eq _).symm
    _ = (s.settled.flatMap s.diagnostics.forClass).countP fun d => d.category == .integrity :=
      (countP_flatMap_eq_countP hblock).symm
    _ = _ := by rw [← hs.blocks.joined]

end Finished

end Merge

namespace Run
open Merge

section Passes
variable (h : Hierarchy) (loaded : LoadedObservations) (encoding : VtableEncoding)
  (fixGetters : Bool) (generatedAt : String)

/-- The getters are fixed before placeholders are named, and that leaves all names. -/
theorem artifacts_placeholdersSynthesized :
    (artifacts h loaded encoding fixGetters generatedAt).report.counts.placeholdersSynthesized =
      (settled h loaded).table.prototypes.countP fun p => !p.isNamed := by
  have hcount := (settled h loaded).table.synthesizePlaceholders_count
  cases fixGetters with
  | false => exact hcount
  | true =>
    exact (PrototypeTable.revise_count PrototypeTable.apart_withoutVoidReturn?).trans hcount

theorem artifacts_gettersFixed :
    (artifacts h loaded encoding fixGetters generatedAt).report.counts.gettersFixed =
      if fixGetters then (settled h loaded).table.prototypes.countP Prototype.isVoidGetter
      else 0 := by
  cases fixGetters with
  | false => rfl
  | true => exact (settled h loaded).table.fixVoidGetters_count

end Passes

theorem droppedClasses_eq_sum (loaded : LoadedObservations) :
    loaded.droppedClasses = (loaded.documents.map fun d => d.counts.dropped).sum := by
  rw [LoadedObservations.droppedClasses, List.sum_eq_foldl, List.foldl_map]

/-- The counts, the findings and the exported tables of one merge agree. -/
structure Balanced (h : Hierarchy) (loaded : LoadedObservations) (fixGetters : Bool)
    (a : Artifacts) : Prop where
  /-- The exported classes are those of the hierarchy in their order. -/
  exported : a.classes.map (fun c => (c.name, c.parent, c.isAbstract)) =
    h.nodes.map fun c => (c.name, c.parent, c.isAbstract)
  classes : a.report.counts.classes = a.classes.length
  ends : a.report.counts.classes = a.report.counts.classesResolved +
    a.report.counts.classesUnobserved + a.report.counts.classesFailed
  resolved : a.report.counts.classesResolved = a.classes.countP fun c => c.vtable.isSome
  unobserved : a.report.counts.classesUnobserved =
    h.nodes.countP fun c => !loaded.store.contains c.name
  failed : a.report.counts.classesFailed =
    a.report.diagnostics.countP fun d => d.category == .integrity
  /-- A class that is observed and has no vtable has one finding about integrity. -/
  integrity : ∀ c ∈ a.classes,
    (a.report.diagnostics.forClass c.name).countP (fun d => d.category == .integrity) =
      if loaded.store.contains c.name && c.vtable.isNone then 1 else 0
  missing : ∀ c ∈ a.classes, (a.report.diagnostics.forClass c.name).countOf .missingParent =
    if loaded.store.contains c.name && h.lacksParent c.parent then 1 else 0
  known : ∀ d ∈ a.report.diagnostics, ∃ c ∈ a.classes, c.name = d.className
  diagnostics : a.report.counts.diagnostics = a.report.diagnostics.length
  prototypes : a.report.counts.prototypes = a.prototypes.length
  /-- The exported prototypes are those of the merge after the passes. -/
  revised : a.prototypes =
    (Merge.run h loaded.store).prototypes.prototypes.map (Prototype.exported fixGetters)
  placeholders : a.report.counts.placeholdersSynthesized =
    (Merge.run h loaded.store).prototypes.prototypes.countP fun p => !p.isNamed
  getters : a.report.counts.gettersFixed =
    if fixGetters then
      (Merge.run h loaded.store).prototypes.prototypes.countP Prototype.isVoidGetter
    else 0
  documents : a.report.documents = loaded.documents
  dropped : a.report.counts.classesDropped = (a.report.documents.map fun d => d.counts.dropped).sum

section Entries
variable {h : Hierarchy} {s : State} {encoding : VtableEncoding} {c : ClassNode}

theorem ofNode_withVtable_isAbstract (c : ClassNode) :
    (ClassEntry.ofNode encoding (withVtable s c)).isAbstract = c.isAbstract := by
  unfold withVtable
  split <;> rfl

/-- An exported class has a vtable if the merge resolved it. -/
theorem isSome_ofNode_withVtable (hplain : c.slots = none) :
    (ClassEntry.ofNode encoding (withVtable s c)).vtable.isSome = s.isResolved c.name := by
  rw [State.isResolved, ← ofNode_withVtable_slots hplain, ClassEntry.slots, Option.isSome_map]

/-- The findings about integrity of an exported class. -/
theorem countP_integrity_entry {store : ObservationStore} (hs : Finished h store s)
    (hc : c ∈ h.nodes) (hplain : c.slots = none) :
    (s.diagnostics.forClass c.name).countP (fun d => d.category == .integrity) =
      if store.contains c.name &&
        (ClassEntry.ofNode encoding (withVtable s c)).vtable.isNone then 1 else 0 := by
  obtain ⟨o, ho, htells⟩ := hs.exists_told hc
  have hobs := hs.accounted.unobserved_iff c.name o ho
  rw [htells.countP_integrity, ← Option.not_isSome, isSome_ofNode_withVtable hplain,
    ← isResolvedIn_eq, isResolvedIn, ho]
  cases o with
  | resolved slots => simp
  | unobserved => simp [hobs.mp rfl]
  | failed =>
    have hcontains : store.contains c.name = true := by simpa using hobs
    simp [hcontains]

theorem countOf_missingParent_entry {store : ObservationStore} (hs : Finished h store s)
    (hc : c ∈ h.nodes) :
    (s.diagnostics.forClass c.name).countOf .missingParent =
      if store.contains c.name && h.lacksParent c.parent then 1 else 0 := by
  obtain ⟨o, ho, htells⟩ := hs.exists_told hc
  have hobs := hs.accounted.unobserved_iff c.name o ho
  rw [htells.countOf_missingParent]
  by_cases hunobserved : o = .unobserved
  · simp [hunobserved, hobs.mp hunobserved]
  · have hcontains : store.contains c.name = true := by simpa [hunobserved] using hobs
    simp [hunobserved, hcontains]

end Entries

/-- Over a hierarchy that comes without vtables, whatever observations are loaded: the exported
classes are those of the hierarchy, each one resolved, unobserved or failed, and the report counts
them so. A failed class is one that is observed and has no vtable, and has the only finding about
integrity; an observed class whose parent is not in the hierarchy has the only finding of a
missing parent. The other counts are those of the exported prototypes, of the findings, of what
the passes changed and of what the documents dropped. -/
theorem balanced_artifacts (h : Hierarchy) (loaded : LoadedObservations)
    (encoding : VtableEncoding) (fixGetters : Bool) (generatedAt : String)
    (hplain : ∀ c ∈ h.nodes, c.slots = none) :
    Balanced h loaded fixGetters (artifacts h loaded encoding fixGetters generatedAt) := by
  have hs : Finished h loaded.store (settled h loaded) := finished_resolveAll h loaded.store
  have hclasses := artifacts_classes h loaded encoding fixGetters generatedAt
  have hentry : ∀ c ∈ (artifacts h loaded encoding fixGetters generatedAt).classes,
      ∃ d ∈ h.nodes, ClassEntry.ofNode encoding (withVtable (settled h loaded) d) = c := by
    intro c hc
    rw [hclasses] at hc
    exact List.mem_map.mp hc
  refine {
    exported := ?_
    classes := ?_
    ends := countP_ends (settled h loaded) h.nodes
    resolved := ?_
    unobserved := List.countP_congr fun c hc => Bool.eq_iff_iff.mp (hs.unobserved_eq hc)
    failed := hs.countP_integrity
    integrity := ?_
    missing := ?_
    known := ?_
    diagnostics := rfl
    prototypes := rfl
    revised := artifacts_prototypes h loaded encoding fixGetters generatedAt
    placeholders := artifacts_placeholdersSynthesized h loaded encoding fixGetters generatedAt
    getters := artifacts_gettersFixed h loaded encoding fixGetters generatedAt
    documents := rfl
    dropped := droppedClasses_eq_sum loaded }
  · rw [hclasses, List.map_map]
    apply List.map_congr_left
    intro c _
    simp only [Function.comp_apply, ofNode_withVtable_name, ofNode_withVtable_parent,
      ofNode_withVtable_isAbstract]
  · rw [hclasses, List.length_map]
    rfl
  · rw [hclasses, List.countP_map]
    apply List.countP_congr
    intro c hc
    rw [Function.comp_apply, isSome_ofNode_withVtable (hplain c hc), isResolvedIn_eq]
    rfl
  · intro c hc
    obtain ⟨d, hd, rfl⟩ := hentry c hc
    rw [ofNode_withVtable_name]
    exact countP_integrity_entry hs hd (hplain d hd)
  · intro c hc
    obtain ⟨d, hd, rfl⟩ := hentry c hc
    rw [ofNode_withVtable_name, ofNode_withVtable_parent]
    exact countOf_missingParent_entry hs hd
  · intro d hd
    obtain ⟨c, hc, hname⟩ := hs.exists_class hd
    rw [hclasses]
    exact ⟨_, List.mem_map_of_mem hc, hname ▸ ofNode_withVtable_name c⟩

/-- In the small forest Tape has too few slots and Loop is its own parent, so both fail, and the
parent of Stray is missing. -/
theorem balanced_artifacts_sample :
    (∀ c ∈ sampleHierarchy.nodes, c.slots = none) ∧
      (artifacts sampleHierarchy ⟨sampleStore, []⟩ .compact true "now").report.counts =
        ⟨7, 4, 1, 2, 0, 5, 0, 0, 4⟩ ∧
      Balanced sampleHierarchy ⟨sampleStore, []⟩ true
        (artifacts sampleHierarchy ⟨sampleStore, []⟩ .compact true "now") :=
  ⟨by decide, by decide +kernel, balanced_artifacts _ _ _ _ _ (by decide)⟩

end Run
end VtableMerge
