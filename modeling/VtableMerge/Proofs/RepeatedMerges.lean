import VtableMerge.Proofs.Consistency
import VtableMerge.Proofs.SameLinks

/-!
A merge over the classes that another merge left. The vtables that the classes bring along change
nothing about the run: outcomes, prototypes, findings and counts are those of a run over the
classes as they were before. Only the classes of the result differ. A class that the second run
resolves has its new vtable alone, but one that it does not resolve is copied as it came, so it
shows the vtable of the first run, with numbers into a table that is gone.
-/
namespace VtableMerge

/-- A class with its vtable, or with that of an earlier state of it if it has none. -/
def ClassNode.orOld (c old : ClassNode) : ClassNode := { c with slots := c.slots.or old.slots }

namespace Merge

variable {h h' : Hierarchy} {store store' : ObservationStore} {s t : State}

/-- A class that is not resolved keeps what it came with. -/
theorem withVtable_eq (s : State) (c : ClassNode) :
    withVtable s c = { c with slots := (s.vtable? c.name).or c.slots } := by
  unfold withVtable State.vtable?
  cases s.outcome? c.name with
  | none => rfl
  | some o => cases o <;> rfl

theorem withVtable_bare (s : State) (c : ClassNode) : (withVtable s c).bare = c.bare := by
  rw [withVtable_eq]
  rfl

/-- Without an old vtable, a second run gives what a first run would give, if need be completed
from the first run. -/
theorem withVtable_withVtable {c : ClassNode} (hplain : c.slots = none) :
    withVtable t (withVtable s c) = (withVtable t c).orOld (withVtable s c) := by
  simp only [withVtable_eq, ClassNode.orOld, hplain, Option.or_none]

theorem withVtable_withVtable_eq_iff {c : ClassNode} (hplain : c.slots = none) :
    withVtable t (withVtable s c) = withVtable t c ↔
      (s.isResolved c.name = true → t.isResolved c.name = true) := by
  simp only [withVtable_eq, hplain, Option.or_none, ClassNode.mk.injEq, true_and,
    State.isResolved]
  cases t.vtable? c.name <;> cases s.vtable? c.name <;> simp

def leftBy (h : Hierarchy) (s : State) : Hierarchy where
  nodes := h.nodes.map (withVtable s)
  distinct := by
    rw [ClassNode.map_name_of_bare_eq (withVtable_bare s)]
    exact h.distinct

theorem sameLinks_leftBy (h : Hierarchy) (s : State) : h.SameLinks (leftBy h s) :=
  Hierarchy.sameLinks_of_map (withVtable_bare s) rfl

theorem ofNodes_finish (h : Hierarchy) (s : State) :
    Hierarchy.ofNodes (finish h s).classes = .ok (leftBy h s) :=
  Hierarchy.ofNodes_of_nodup (leftBy h s).distinct

/-- The state of a run over the classes that are left is that of a run over the classes as they
were. -/
theorem run_leftBy (h : Hierarchy) (s : State) (store : ObservationStore) :
    run (leftBy h s) store =
      finish (leftBy h s) (resolveAll h store (h.nodes.map ClassNode.name)) := by
  have hnames : (leftBy h s).nodes.map ClassNode.name = h.nodes.map ClassNode.name :=
    ClassNode.map_name_of_bare_eq (withVtable_bare s) h.nodes
  rw [run, hnames, resolveAll_eq_of_sameLinks (sameLinks_leftBy h s)]

/-- The counts go by the names of the classes. -/
theorem stats_finish_leftBy (h : Hierarchy) (s t : State) :
    (finish (leftBy h s) t).stats = (finish h t).stats := by
  have hresolved : ∀ c, isResolvedIn t (withVtable s c) = isResolvedIn t c := fun c => by
    rw [isResolvedIn, isResolvedIn, withVtable_name]
  have hfailed : ∀ c, isFailedIn t (withVtable s c) = isFailedIn t c := fun c => by
    rw [isFailedIn, isFailedIn, withVtable_name]
  simp only [finish, leftBy, Hierarchy.size, List.length_map, List.countP_map, Function.comp_def,
    hresolved, hfailed]

/-- What a run over the classes that a first one left gives, beside a run over the classes as
they were. -/
structure Repeats (first again fresh : Result) : Prop where
  prototypes_eq : again.prototypes = fresh.prototypes
  diagnostics_eq : again.diagnostics = fresh.diagnostics
  stats_eq : again.stats = fresh.stats
  /-- A class that is resolved anew has its new vtable only, any other one what it had. -/
  classes_eq : again.classes = List.zipWith ClassNode.orOld fresh.classes first.classes

theorem repeats_finish (hplain : ∀ c ∈ h.nodes, c.slots = none) (s t : State) :
    Repeats (finish h s) (finish (leftBy h s) t) (finish h t) where
  prototypes_eq := rfl
  diagnostics_eq := rfl
  stats_eq := stats_finish_leftBy h s t
  classes_eq := by
    change (h.nodes.map (withVtable s)).map (withVtable t) =
      List.zipWith ClassNode.orOld (h.nodes.map (withVtable t)) (h.nodes.map (withVtable s))
    rw [List.map_map, List.zipWith_map, List.zipWith_self]
    exact List.map_congr_left fun c hc => withVtable_withVtable (hplain c hc)

/-- A result is its classes once the rest is known. -/
theorem Repeats.eq_iff {first again fresh : Result} (hrep : Repeats first again fresh) :
    again = fresh ↔ again.classes = fresh.classes := by
  constructor
  · exact congrArg Result.classes
  · intro hclasses
    cases again
    cases fresh
    simp only [Result.mk.injEq]
    exact ⟨hclasses, hrep.prototypes_eq, hrep.diagnostics_eq, hrep.stats_eq⟩

theorem finish_leftBy_eq_iff (hplain : ∀ c ∈ h.nodes, c.slots = none) (s t : State) :
    finish (leftBy h s) t = finish h t ↔
      ∀ c ∈ h.nodes, s.isResolved c.name = true → t.isResolved c.name = true := by
  rw [(repeats_finish hplain s t).eq_iff]
  change (h.nodes.map (withVtable s)).map (withVtable t) = h.nodes.map (withVtable t) ↔ _
  rw [List.map_map, List.map_inj_left]
  exact forall₂_congr fun c hc => withVtable_withVtable_eq_iff (hplain c hc)

/-- The classes of a merge always make a hierarchy again. A second merge over it gives the
prototypes, findings and counts of a merge over the first hierarchy, whatever the first run found.
It gives the same classes exactly if it resolves every class that the first run resolved; a class
that it does not resolve shows its old vtable. -/
theorem repeats_run (h : Hierarchy) (store store' : ObservationStore)
    (hplain : ∀ c ∈ h.nodes, c.slots = none) :
    ∃ left, Hierarchy.ofNodes (run h store).classes = .ok left ∧
      Repeats (run h store) (run left store') (run h store') ∧
      (run left store' = run h store' ↔ ∀ c ∈ h.nodes,
        (resolveAll h store (h.nodes.map ClassNode.name)).isResolved c.name = true →
          (resolveAll h store' (h.nodes.map ClassNode.name)).isResolved c.name = true) := by
  refine ⟨leftBy h (resolveAll h store (h.nodes.map ClassNode.name)), ofNodes_finish h _, ?_⟩
  rw [run_leftBy]
  exact ⟨repeats_finish hplain _ _, finish_leftBy_eq_iff hplain _ _⟩

/-- The small forest merged again with its root alone observed, and now with one slot. -/
theorem repeats_run_sample : (∀ c ∈ sampleHierarchy.nodes, c.slots = none) ∧
    ∃ left, Hierarchy.ofNodes (run sampleHierarchy sampleStore).classes = .ok left ∧
      Repeats (run sampleHierarchy sampleStore)
        (run left ⟨[("Device", ⟨"c", [.pureVirtual 0]⟩)]⟩)
        (run sampleHierarchy ⟨[("Device", ⟨"c", [.pureVirtual 0]⟩)]⟩) ∧
      run left ⟨[("Device", ⟨"c", [.pureVirtual 0]⟩)]⟩ ≠
        run sampleHierarchy ⟨[("Device", ⟨"c", [.pureVirtual 0]⟩)]⟩ := by
  obtain ⟨left, hleft, hrep, hiff⟩ := repeats_run sampleHierarchy sampleStore
    ⟨[("Device", ⟨"c", [.pureVirtual 0]⟩)]⟩ (by decide)
  exact ⟨by decide, left, hleft, hrep, fun heq => absurd (hiff.mp heq) (by decide)⟩

/-- One class, merged once with an observation of it and once without any: its old vtable points
to a prototype, and there are none. -/
theorem old_vtable_survives : ∃ left,
    Hierarchy.ofNodes (run ⟨[.root "Shape"], by decide⟩
      ⟨[("Shape", ⟨"a", [.concrete 0 "draw"]⟩)]⟩).classes = .ok left ∧
      (run left ⟨[]⟩).classes =
        [⟨"Shape", none, false, some [⟨⟨0⟩, false, false, none⟩]⟩] ∧
      (run left ⟨[]⟩).prototypes.get? ⟨0⟩ = none ∧ (run left ⟨[]⟩).stats.resolved = 0 ∧
      run left ⟨[]⟩ ≠ run ⟨[.root "Shape"], by decide⟩ ⟨[]⟩ := by
  refine ⟨_, ofNodes_finish _ _, by decide, by decide, by decide, fun heq => ?_⟩
  exact absurd (congrArg Result.classes heq) (by decide)

end Merge

end VtableMerge
