import VtableMerge.Proofs.FailedAncestry
import VtableMerge.Proofs.Folds
import VtableMerge.Proofs.Growth

/-!
The order of the findings. Nothing is found about a class before its parent is settled, and
everything that is found about it comes with the step that settles it. So the findings of a merge
are blocks, one for each class in the order in which the classes were settled. A block tells a
failure by one finding, and the conflicts of a resolved class slot by slot.
-/
namespace VtableMerge

namespace Diagnostics
variable {ds : Diagnostics} {name : String}

theorem forClass_append (ds es : Diagnostics) (name : String) :
    Diagnostics.forClass (ds ++ es) name = ds.forClass name ++ es.forClass name :=
  List.filter_append ..

theorem forClass_eq_self (hds : ∀ d ∈ ds, d.className = name) : ds.forClass name = ds := by
  apply List.filter_eq_self.mpr
  intro d hd
  simpa using hds d hd

theorem forClass_eq_nil (hds : ∀ d ∈ ds, d.className ≠ name) : ds.forClass name = [] := by
  apply List.filter_eq_nil_iff.mpr
  intro d hd
  simpa using hds d hd

/-- Findings about another class do not matter. -/
theorem forClass_append_of_ne (ds : Diagnostics) {es : Diagnostics} {other : String}
    (hes : ∀ d ∈ es, d.className = other) (hne : name ≠ other) :
    Diagnostics.forClass (ds ++ es) name = ds.forClass name := by
  have hnone : es.forClass name = [] := by
    apply forClass_eq_nil
    intro d hd heq
    exact hne (heq.symm.trans (hes d hd))
  rw [forClass_append, hnone, List.append_nil]

theorem mem_forClass {d : Diagnostic} : d ∈ ds.forClass name ↔ d ∈ ds ∧ d.className = name := by
  rw [forClass, List.mem_filter, beq_iff_eq]

end Diagnostics

/-- One conflict of a class comes before another one: at a lower slot, or at the same slot, where
a mismatch of names comes before one of parameter counts. -/
def Diagnostic.Before (d e : Diagnostic) : Prop :=
  ∃ i j, d.slotIndex = some i ∧ e.slotIndex = some j ∧
    (i < j ∨ i = j ∧ d.kind = .nameMismatch ∧ e.kind = .parameterCountMismatch)

/-- Conflicts of a class at the slots from one position up to another one, in their order. No
conflict comes before one of its kind at the same slot, so there are not two of them. -/
structure SlotConflicts (className : String) (first last : Nat) (ds : Diagnostics) : Prop where
  about : ∀ d ∈ ds, d.className = className ∧ d.category = .conflict
  kind : ∀ d ∈ ds, d.kind = .nameMismatch ∨ d.kind = .parameterCountMismatch
  within : ∀ d ∈ ds, ∃ i, first ≤ i ∧ i < last ∧ d.slotIndex = some i
  ordered : ds.Pairwise Diagnostic.Before

namespace SlotConflicts
variable {className : String} {first middle last : Nat} {ds es : Diagnostics}

theorem nil (className : String) (first last : Nat) : SlotConflicts className first last [] := by
  constructor <;> simp

theorem sublist (hes : SlotConflicts className first last es) (hsub : ds.Sublist es) :
    SlotConflicts className first last ds where
  about d hd := hes.about d (hsub.subset hd)
  kind d hd := hes.kind d (hsub.subset hd)
  within d hd := hes.within d (hsub.subset hd)
  ordered := hes.ordered.sublist hsub

theorem mono (hds : SlotConflicts className first middle ds) (hle : middle ≤ last) :
    SlotConflicts className first last ds := by
  refine { hds with within := ?_ }
  intro d hd
  obtain ⟨i, hfirst, hlast, hi⟩ := hds.within d hd
  exact ⟨i, hfirst, by omega, hi⟩

theorem append (hds : SlotConflicts className first middle ds)
    (hes : SlotConflicts className middle last es) (hle : first ≤ middle)
    (hle' : middle ≤ last) : SlotConflicts className first last (ds ++ es) := by
  refine {
    about := List.forall_mem_append.mpr ⟨hds.about, hes.about⟩
    kind := List.forall_mem_append.mpr ⟨hds.kind, hes.kind⟩
    within := List.forall_mem_append.mpr ⟨(hds.mono hle').within, ?_⟩
    ordered := List.pairwise_append.mpr ⟨hds.ordered, hes.ordered, ?_⟩ }
  · intro e he
    obtain ⟨j, hfirst, hlast, hj⟩ := hes.within e he
    exact ⟨j, by omega, hlast, hj⟩
  · intro d hd e he
    obtain ⟨i, -, hi, hslot⟩ := hds.within d hd
    obtain ⟨j, hj, -, hslot'⟩ := hes.within e he
    exact ⟨i, j, hslot, hslot', Or.inl (by omega)⟩

theorem enrich (p : Prototype) (o : Observation) (className : String) (slotIndex : Nat) :
    SlotConflicts className slotIndex (slotIndex + 1)
      (p.enrich o className slotIndex).conflicts := by
  obtain ⟨q, hsub⟩ := p.enrich_conflicts_sublist o className slotIndex
  have hboth : SlotConflicts className slotIndex (slotIndex + 1)
      [p.nameMismatch className slotIndex o.name,
        q.parameterCountMismatch className slotIndex o.parameters] := by
    constructor
    · simp [Prototype.nameMismatch, Prototype.parameterCountMismatch, Diagnostic.ofClass,
        Diagnostic.atSlot, DiagnosticKind.category]
    · simp [Prototype.nameMismatch, Prototype.parameterCountMismatch, Diagnostic.ofClass,
        Diagnostic.atSlot]
    · simp [Prototype.nameMismatch, Prototype.parameterCountMismatch, Diagnostic.ofClass,
        Diagnostic.atSlot]
    · apply List.pairwise_pair.mpr
      exact ⟨slotIndex, slotIndex, rfl, rfl, Or.inr ⟨rfl, rfl, rfl⟩⟩
  exact hboth.sublist hsub

end SlotConflicts

namespace Merge

section Laying
variable (className : String)

theorem slotConflicts_enrichInherited (slotIndex : Nat) (id : ProtoId) (o : Observation)
    (table : PrototypeTable) :
    SlotConflicts className slotIndex (slotIndex + 1)
      (enrichInherited className slotIndex id o table).2 := by
  unfold enrichInherited
  split
  · exact SlotConflicts.nil className slotIndex _
  · next p _ => exact SlotConflicts.enrich p o className slotIndex

/-- New slots have no conflicts, and inherited ones have them in their order. -/
theorem slotConflicts_layFrom (slotIndex : Nat) (table : PrototypeTable) (ids : List ProtoId)
    (observed : List Observation) :
    SlotConflicts className slotIndex (slotIndex + ids.length)
      (layFrom className slotIndex table ids observed).conflicts := by
  induction observed generalizing slotIndex table ids with
  | nil => exact SlotConflicts.nil className slotIndex _
  | cons o os ih =>
    cases ids with
    | nil =>
      rw [layFrom_conflicts className (by simp)]
      exact SlotConflicts.nil className slotIndex _
    | cons id ids =>
      have hrest := ih (slotIndex + 1) (enrichInherited className slotIndex id o table).1 ids
      have hlast : slotIndex + 1 + ids.length = slotIndex + (id :: ids).length := by
        simp only [List.length_cons]
        omega
      rw [hlast] at hrest
      apply (slotConflicts_enrichInherited className slotIndex id o table).append hrest
      · omega
      · simp

end Laying

variable {h : Hierarchy} {store : ObservationStore} {s t : State} {c : ClassNode}

inductive Tells (h : Hierarchy) (c : ClassNode) (inherited : Nat) : Outcome → Diagnostics → Prop
  | unobserved : Tells h c inherited .unobserved []
  | failed (kind : DiagnosticKind) (detail : String) (hkind : kind.category = .integrity)
      (hroot : rootFindings h c = []) :
      Tells h c inherited .failed [.ofClass c.name kind detail]
  | resolved (slots : List VtableSlot) (conflicts : Diagnostics)
      (hconflicts : SlotConflicts c.name 0 inherited conflicts) :
      Tells h c inherited (.resolved slots) (rootFindings h c ++ conflicts)

namespace Tells
variable {inherited inherited' : Nat} {o : Outcome} {found : Diagnostics}

theorem about (htells : Tells h c inherited o found) : ∀ d ∈ found, d.className = c.name := by
  cases htells with
  | unobserved => simp
  | failed kind detail hkind hroot => simp [Diagnostic.ofClass]
  | resolved slots conflicts hconflicts =>
    intro d hd
    rcases List.mem_append.mp hd with hroot | hconflict
    · exact className_of_mem_rootFindings hroot
    · exact (hconflicts.about d hconflict).1

theorem mono (htells : Tells h c inherited o found) (hle : inherited ≤ inherited') :
    Tells h c inherited' o found := by
  cases htells with
  | unobserved => exact Tells.unobserved
  | failed kind detail hkind hroot => exact Tells.failed kind detail hkind hroot
  | resolved slots conflicts hconflicts =>
    exact Tells.resolved slots conflicts (hconflicts.mono hle)

theorem eq_nil_of_unobserved (htells : Tells h c inherited .unobserved found) : found = [] := by
  cases htells
  rfl

theorem eq_singleton_of_failed (htells : Tells h c inherited .failed found) :
    ∃ d, found = [d] ∧ d.slotIndex = none ∧ d.category = .integrity := by
  cases htells with
  | failed kind detail hkind hroot => exact ⟨_, rfl, rfl, hkind⟩

theorem eq_append_of_resolved {slots : List VtableSlot}
    (htells : Tells h c inherited (.resolved slots) found) :
    ∃ conflicts, found = rootFindings h c ++ conflicts ∧
      SlotConflicts c.name 0 inherited conflicts := by
  cases htells with
  | resolved slots conflicts hconflicts => exact ⟨conflicts, rfl, hconflicts⟩

end Tells

/-- A step gives its class an outcome and adds what is told about it. -/
theorem exists_tells (hc : Ready h store s c) (hstep : Settles h store s c t) :
    ∃ o found, t.outcomes = (c.name, o) :: s.outcomes ∧
      t.diagnostics = s.diagnostics ++ found ∧
      Tells h c (s.parentVtable c).length o found := by
  cases hstep with
  | unobserved hobs => exact ⟨_, _, rfl, rfl, Tells.unobserved⟩
  | cyclic observed hobs hcyclic =>
    have hroot : rootFindings h c = [] := rootFindings_eq_nil fun parent hparent =>
      h.contains_parent_of_isCyclic hcyclic (hc.parentName?_eq.trans hparent)
    exact ⟨_, _, rfl, rfl, Tells.failed .cyclicAncestry _ rfl hroot⟩
  | orphaned observed parent hobs hcyclic hparent hinside hfailed =>
    have hroot : rootFindings h c = [] := by simp [rootFindings, hparent, hinside]
    exact ⟨_, _, rfl, rfl, Tells.failed .unresolvedAncestor _ rfl hroot⟩
  | shrunk observed parent slots hobs hcyclic hparent hinside hslots hlength =>
    have hroot : rootFindings h c = [] := by simp [rootFindings, hparent, hinside]
    exact ⟨_, _, rfl, rfl, Tells.failed .slotCountShrink _ rfl hroot⟩
  | resolved observed hobs hcyclic hparent hlength =>
    have hconflicts := slotConflicts_layFrom c.name 0 s.table
      ((s.parentVtable c).map VtableSlot.id) observed
    rw [Nat.zero_add, List.length_map] at hconflicts
    exact ⟨_, _, rfl, rfl, Tells.resolved _ _ hconflicts⟩

/-- A parent vtable is empty until the parent is resolved, and then it stays. -/
theorem parentVtable_length_le
    (hmono : ∀ name o, s.outcome? name = some o → t.outcome? name = some o) (c : ClassNode) :
    (s.parentVtable c).length ≤ (t.parentVtable c).length := by
  cases hparent : c.parent with
  | none => simp [State.parentVtable, hparent]
  | some parent =>
    cases hvtable : s.vtable? parent with
    | none => simp [State.parentVtable, hparent, hvtable]
    | some slots =>
      have hlater : t.vtable? parent = some slots :=
        State.vtable?_eq_some_iff.mpr (hmono _ _ (State.vtable?_eq_some_iff.mp hvtable))
      simp [State.parentVtable, hparent, hvtable, hlater]

def State.settled (s : State) : List String := (s.outcomes.map Prod.fst).reverse

theorem State.settled_of_cons {name : String} {o : Outcome}
    (ht : t.outcomes = (name, o) :: s.outcomes) : t.settled = s.settled ++ [name] := by
  simp only [State.settled, ht, List.map_cons, List.reverse_cons]

theorem mem_settled {name : String} : name ∈ s.settled ↔ (s.outcome? name).isSome = true := by
  rw [State.settled, List.mem_reverse, ← not_iff_not, ← outcome?_eq_none_iff, Bool.not_eq_true,
    Option.isSome_eq_false_iff, Option.isNone_iff_eq_none]

theorem Ready.not_mem_settled (hc : Ready h store s c) : c.name ∉ s.settled := by
  simp [mem_settled, hc.fresh]

structure DependsOn (h : Hierarchy) (store : ObservationStore) (name parent : String) :
    Prop where
  needs : needsParent h store name = true
  link : h.parentName? name = some parent
  inside : h.contains parent = true

/-- What holds of the findings in every state: they are the blocks of the settled classes, and
no class is settled before one that it depends on. -/
structure Blocks (h : Hierarchy) (store : ObservationStore) (s : State) : Prop where
  nodup : s.settled.Nodup
  joined : s.diagnostics = s.settled.flatMap s.diagnostics.forClass
  told : ∀ c o, h.get? c.name = some c → s.outcome? c.name = some o →
    Tells h c (s.parentVtable c).length o (s.diagnostics.forClass c.name)
  known : ∀ name ∈ s.settled, h.contains name = true
  supported : ∀ name parent, DependsOn h store name parent → name ∈ s.settled →
    parent ∈ s.settled
  ordered : ∀ name parent, DependsOn h store name parent →
    s.settled.Pairwise fun earlier later => earlier = name → later ≠ parent

theorem blocks_initial (h : Hierarchy) (store : ObservationStore) :
    Blocks h store State.initial where
  nodup := List.nodup_nil
  joined := rfl
  told c o _ ho := by cases ho
  known name hname := by cases hname
  supported name parent _ hname := by cases hname
  ordered name parent _ := List.Pairwise.nil

namespace Blocks

/-- Nothing is found about a class that is not settled. -/
theorem forClass_eq_nil (hs : Blocks h store s) {name : String} (hname : name ∉ s.settled) :
    s.diagnostics.forClass name = [] := by
  apply Diagnostics.forClass_eq_nil
  intro d hd heq
  rw [hs.joined, List.mem_flatMap] at hd
  obtain ⟨other, hother, hd⟩ := hd
  have hclass := (Diagnostics.mem_forClass.mp hd).2
  rw [← heq, hclass] at hname
  exact hname hother

/-- What is found about a class that is settled now is all that is found about it. -/
theorem forClass_append_self (hs : Blocks h store s) (hc : Ready h store s c)
    {found : Diagnostics} (hfound : ∀ d ∈ found, d.className = c.name) :
    Diagnostics.forClass (s.diagnostics ++ found) c.name = found := by
  rw [Diagnostics.forClass_append, hs.forClass_eq_nil hc.not_mem_settled, List.nil_append,
    Diagnostics.forClass_eq_self hfound]

/-- Every step keeps the blocks. -/
theorem settles (hs : Blocks h store s) (hc : Ready h store s c)
    (hstep : Settles h store s c t) : Blocks h store t := by
  obtain ⟨o, found, houtcomes, hdiagnostics, htells⟩ := exists_tells hc hstep
  have hadds : Adds s c o t := adds_of_cons hc houtcomes
  have hsettled : t.settled = s.settled ++ [c.name] := State.settled_of_cons houtcomes
  have hfresh : c.name ∉ s.settled := hc.not_mem_settled
  have hself : t.diagnostics.forClass c.name = found := by
    rw [hdiagnostics]
    exact hs.forClass_append_self hc htells.about
  have hothers {name : String} (hne : name ≠ c.name) :
      t.diagnostics.forClass name = s.diagnostics.forClass name := by
    rw [hdiagnostics]
    exact Diagnostics.forClass_append_of_ne s.diagnostics htells.about hne
  refine {
    nodup := ?_
    joined := ?_
    told := fun d o' hd ho => ?_
    known := fun name hname => ?_
    supported := fun name parent hdepends hname => ?_
    ordered := fun name parent hdepends => ?_ }
  · rw [hsettled, List.nodup_append_comm]
    exact List.nodup_cons.mpr ⟨hfresh, hs.nodup⟩
  · have hbefore : s.settled.flatMap t.diagnostics.forClass =
        s.settled.flatMap s.diagnostics.forClass := by
      apply List.flatMap_congr
      intro name hname
      exact hothers (ne_of_mem_of_not_mem hname hfresh)
    rw [hsettled, List.flatMap_append, hbefore, ← hs.joined, List.flatMap_singleton, hself,
      hdiagnostics]
  · have hlonger := parentVtable_length_le hadds.mono d
    rcases hadds.cases_of_outcome? ho with ⟨hname, rfl⟩ | ⟨hne, hold⟩
    · have heq : d = c := by
        rw [hname, hc.known] at hd
        exact (Option.some.inj hd).symm
      rw [heq, hself]
      exact htells.mono (heq ▸ hlonger)
    · rw [hothers hne]
      exact (hs.told d o' hd hold).mono hlonger
  · rw [hsettled, List.mem_append, List.mem_singleton] at hname
    rcases hname with hname | rfl
    · exact hs.known name hname
    · exact h.contains_iff_exists.mpr ⟨c, hc.known⟩
  · rw [hsettled, List.mem_append, List.mem_singleton] at hname ⊢
    rcases hname with hname | rfl
    · exact Or.inl (hs.supported name parent hdepends hname)
    · have hlink : c.parent = some parent := hc.parentName?_eq.symm.trans hdepends.link
      exact Or.inl (mem_settled.mpr (hc.supported hdepends.needs parent hlink hdepends.inside))
  · rw [hsettled, List.pairwise_append]
    refine ⟨hs.ordered name parent hdepends, List.pairwise_singleton .., ?_⟩
    -- the class settled now was not there when the classes that depend on it were
    intro earlier hearlier later hlater heq
    rw [List.mem_singleton] at hlater
    rw [heq] at hearlier
    have hparent := hs.supported name parent hdepends hearlier
    rw [hlater]
    exact (ne_of_mem_of_not_mem hparent hfresh).symm

end Blocks

theorem blocks_of_leads (hlead : Leads h store State.initial s) : Blocks h store s := by
  induction hlead with
  | refl => exact blocks_initial h store
  | settle hlead hc ih => exact ih.settles hc (settles_settle (inside_of_leads hlead) _)

namespace Blocks

/-- The findings about a class stand together. -/
theorem contiguous (hs : Blocks h store s) (name : String) :
    ∃ before after, s.diagnostics = before ++ s.diagnostics.forClass name ++ after := by
  by_cases hname : name ∈ s.settled
  · obtain ⟨front, back, hsplit⟩ := List.append_of_mem hname
    refine ⟨front.flatMap s.diagnostics.forClass, back.flatMap s.diagnostics.forClass, ?_⟩
    calc
      s.diagnostics = s.settled.flatMap s.diagnostics.forClass := hs.joined
      _ = _ := by
        rw [hsplit, List.flatMap_append, List.flatMap_cons, List.append_assoc]
  · refine ⟨s.diagnostics, [], ?_⟩
    rw [hs.forClass_eq_nil hname, List.append_nil, List.append_nil]

/-- The block of a settled class tells what became of it. -/
theorem exists_told (hs : Blocks h store s) {name : String} {o : Outcome}
    (ho : s.outcome? name = some o) :
    ∃ c, h.get? name = some c ∧ c.name = name ∧
      Tells h c (s.parentVtable c).length o (s.diagnostics.forClass name) := by
  have hsettled : name ∈ s.settled := by simp [mem_settled, ho]
  obtain ⟨c, hc⟩ := h.contains_iff_exists.mp (hs.known name hsettled)
  obtain rfl := h.name_of_get? hc
  exact ⟨c, hc, rfl, hs.told c o hc ho⟩

theorem forClass_eq_nil_of_unobserved (hs : Blocks h store s) {name : String}
    (ho : s.outcome? name = some .unobserved) : s.diagnostics.forClass name = [] := by
  obtain ⟨c, -, -, htells⟩ := hs.exists_told ho
  exact htells.eq_nil_of_unobserved

/-- A class that something is found about was observed. -/
theorem contains_of_mem (hs : Blocks h store s) (hacc : Accounted h store s) {d : Diagnostic}
    (hd : d ∈ s.diagnostics) : store.contains d.className = true := by
  have hne : s.diagnostics.forClass d.className ≠ [] :=
    List.ne_nil_of_mem (Diagnostics.mem_forClass.mpr ⟨hd, rfl⟩)
  by_contra hobs
  have hobs : store.contains d.className = false := by simpa using hobs
  cases ho : s.outcome? d.className with
  | none =>
    apply hne
    apply hs.forClass_eq_nil
    simp [mem_settled, ho]
  | some o =>
    obtain rfl := (hacc.unobserved_iff _ o ho).mpr hobs
    exact hne (hs.forClass_eq_nil_of_unobserved ho)

/-- No finding about the parent comes after one about the class. -/
theorem pairwise_parent (hs : Blocks h store s) {name parent : String}
    (hdepends : DependsOn h store name parent) :
    s.diagnostics.Pairwise fun earlier later =>
      earlier.className = name → later.className ≠ parent := by
  have hne : parent ≠ name :=
    ne_of_parentName? (not_isCyclic_of_needsParent hdepends.needs) hdepends.link
  rw [hs.joined, List.pairwise_flatMap]
  constructor
  · -- inside of a block all findings are about one class
    intro settled _
    apply List.pairwise_of_forall_mem_list
    intro d hd e he hname hparent
    have hd := (Diagnostics.mem_forClass.mp hd).2
    have he := (Diagnostics.mem_forClass.mp he).2
    exact hne (hparent.symm.trans (he.trans (hd.symm.trans hname)))
  · apply (hs.ordered name parent hdepends).imp
    intro earlier later hlater d hd e he hname hparent
    have hd := (Diagnostics.mem_forClass.mp hd).2
    have he := (Diagnostics.mem_forClass.mp he).2
    exact hlater (hd.symm.trans hname) (he.symm.trans hparent)

theorem lt_of_parent (hs : Blocks h store s) {name parent : String}
    (hdepends : DependsOn h store name parent) {i j : Nat} {d e : Diagnostic}
    (hd : s.diagnostics[i]? = some d) (hparent : d.className = parent)
    (he : s.diagnostics[j]? = some e) (hname : e.className = name) : i < j := by
  have hne : parent ≠ name :=
    ne_of_parentName? (not_isCyclic_of_needsParent hdepends.needs) hdepends.link
  obtain ⟨hi, rfl⟩ := List.getElem?_eq_some_iff.mp hd
  obtain ⟨hj, rfl⟩ := List.getElem?_eq_some_iff.mp he
  by_contra hle
  rcases Nat.lt_or_eq_of_le (Nat.le_of_not_lt hle) with hlt | rfl
  · have hpairwise := List.pairwise_iff_getElem.mp (hs.pairwise_parent hdepends)
    exact hpairwise j i hj hi hlt hname hparent
  · exact hne (hparent.symm.trans hname)

end Blocks

structure InVisitingOrder (h : Hierarchy) (store : ObservationStore) (s : State)
    (ds : Diagnostics) : Prop where
  /-- The findings about a class stand together. -/
  contiguous : ∀ name, ∃ before after, ds = before ++ ds.forClass name ++ after
  /-- Whatever is found about a parent stands before whatever is found about the class. -/
  parent_first : ∀ name parent, h.isCyclic name = false → h.parentName? name = some parent →
    h.contains parent = true → ∀ (i j : Nat) (d e : Diagnostic), ds[i]? = some d →
      d.className = parent → ds[j]? = some e → e.className = name → i < j
  failed : ∀ name, s.outcome? name = some .failed →
    ∃ d, ds.forClass name = [d] ∧ d.slotIndex = none ∧ d.category = .integrity
  /-- At most one missing parent, and then conflicts at the inherited slots in their order. -/
  resolved : ∀ name, s.isResolved name = true → ∃ c roots conflicts,
    h.get? name = some c ∧ ds.forClass name = roots ++ conflicts ∧
    (roots = [] ∨ ∃ parent, roots = [missingParent name parent]) ∧
    SlotConflicts name 0 (s.parentVtable c).length conflicts
  unobserved : ∀ name, s.outcome? name = some .unobserved ∨ store.contains name = false →
    ds.forClass name = []

/-- Whatever names are resolved, the findings come in the order in which the classes are settled:
those about a class stand together, after all those about its parent. A failed class has one
finding, without a slot, and a class without observations has none. A resolved class has at most
the one that its parent is missing, and then conflicts at the slots that it inherits, from the
first slot to the last and a mismatch of names before one of parameter counts. -/
theorem inVisitingOrder_finish (h : Hierarchy) (store : ObservationStore) (names : List String) :
    InVisitingOrder h store (resolveAll h store names)
      (finish h (resolveAll h store names)).diagnostics := by
  have hlead : Leads h store State.initial (resolveAll h store names) := leads_resolveAll names
  have hacc : Accounted h store (resolveAll h store names) := accounted_of_leads hlead
  have hs : Blocks h store (resolveAll h store names) := blocks_of_leads hlead
  show InVisitingOrder h store (resolveAll h store names) (resolveAll h store names).diagnostics
  refine {
    contiguous := hs.contiguous
    parent_first := ?_
    failed := ?_
    resolved := ?_
    unobserved := ?_ }
  · intro name parent hcyclic hlink hinside i j d e hd hparent he hname
    have hobs := hs.contains_of_mem hacc (List.mem_of_getElem? he)
    rw [hname] at hobs
    have hneeds : needsParent h store name = true := by simp [needsParent, hobs, hcyclic]
    exact hs.lt_of_parent ⟨hneeds, hlink, hinside⟩ hd hparent he hname
  · intro name ho
    obtain ⟨c, -, -, htells⟩ := hs.exists_told ho
    exact htells.eq_singleton_of_failed
  · intro name hresolved
    obtain ⟨slots, ho⟩ := isResolved_iff_outcome?.mp hresolved
    obtain ⟨c, hc, rfl, htells⟩ := hs.exists_told ho
    obtain ⟨conflicts, hblock, hconflicts⟩ := htells.eq_append_of_resolved
    refine ⟨c, rootFindings h c, conflicts, hc, hblock, ?_, hconflicts⟩
    rcases rootFindings_cases h c with hnil | ⟨parent, -, -, hsome⟩
    · exact Or.inl hnil
    · exact Or.inr ⟨parent, hsome⟩
  · intro name hname
    rcases hname with ho | hobs
    · exact hs.forClass_eq_nil_of_unobserved ho
    · apply Diagnostics.forClass_eq_nil
      rintro d hd rfl
      rw [hs.contains_of_mem hacc hd] at hobs
      cases hobs

end Merge
end VtableMerge
