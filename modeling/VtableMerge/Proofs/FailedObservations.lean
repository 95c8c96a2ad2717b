import VtableMerge.Proofs.Consistency
import VtableMerge.Proofs.Growth

/-!
What a failed class had been observed with leaves no trace. A step that fails looks at the number
of observations at most, and at nothing of them if the class is its own ancestor or its parent
failed. So two stores that differ in a failed class only take the same steps, one by one.
-/
namespace VtableMerge

namespace ObservationStore

def replace (store : ObservationStore) (name : String) (entry : StoredClass) : ObservationStore :=
  ⟨put name entry store.classes⟩

theorem lookup_put (name n : String) (entry : StoredClass)
    (classes : List (String × StoredClass)) :
    (put name entry classes).lookup n = if n = name then some entry else classes.lookup n := by
  induction classes with
  | nil =>
    rw [put, List.lookup_cons]
    by_cases hn : n = name
    · simp [hn]
    · simp [hn, beq_eq_false_iff_ne.mpr hn]
  | cons first rest ih =>
    obtain ⟨key, old⟩ := first
    rw [put, List.lookup_cons]
    by_cases hkey : key = name
    · subst hkey
      by_cases hn : n = key
      · simp [hn]
      · simp [List.lookup_cons, hn, beq_eq_false_iff_ne.mpr hn]
    · rw [if_neg (by simpa using hkey), List.lookup_cons, ih]
      by_cases hn : n = key
      · subst hn
        simp [hkey]
      · simp [beq_eq_false_iff_ne.mpr hn]

theorem get?_replace (store : ObservationStore) (name n : String) (entry : StoredClass) :
    (store.replace name entry).get? n =
      if n = name then some entry.slots else store.get? n := by
  simp only [get?, entry?, replace, lookup_put]
  split <;> rfl

end ObservationStore

namespace Merge

inductive Fails (h : Hierarchy) (s : State) (c : ClassNode) (count : Nat) : State → Prop
  | cyclic (hcyclic : h.isCyclic c.name = true) :
      Fails h s c count (s.settleAs c.name .failed [cyclicAncestry c.name])
  | orphaned (parent : String) (hcyclic : h.isCyclic c.name = false)
      (habove : inheritance h s c = .failed parent) :
      Fails h s c count (s.settleAs c.name .failed [unresolvedAncestor c.name parent])
  | shrunk (parent : String) (ids : List ProtoId) (hcyclic : h.isCyclic c.name = false)
      (habove : inheritance h s c = .slots parent ids) (hshort : count < ids.length) :
      Fails h s c count
        (s.settleAs c.name .failed [slotCountShrink c.name parent ids.length count])

variable {h : Hierarchy} {store store' : ObservationStore} {s t last : State} {c : ClassNode}
  {observed : List Observation}

theorem layClass_outcome?_ne_failed (s : State) (name : String) (ids : List ProtoId)
    (observed : List Observation) (findings : Diagnostics) :
    (layClass s name ids observed findings).outcome? name ≠ some .failed := by
  simp [layClass, State.settleAs, State.outcome?]

theorem fails_of_outcome? (hobs : store.get? c.name = some observed)
    (hfailed : (settle h store s c).outcome? c.name = some .failed) :
    Fails h s c observed.length (settle h store s c) := by
  unfold settle at hfailed ⊢
  simp only [hobs] at hfailed ⊢
  split
  · next hcyclic => exact Fails.cyclic hcyclic
  · next hcyclic =>
    rw [if_neg hcyclic] at hfailed
    have hcyclic : h.isCyclic c.name = false := by simpa using hcyclic
    unfold settleObserved at hfailed ⊢
    cases habove : inheritance h s c with
    | none =>
      rw [habove] at hfailed
      exact absurd hfailed (layClass_outcome?_ne_failed s c.name _ _ _)
    | missing parent =>
      rw [habove] at hfailed
      exact absurd hfailed (layClass_outcome?_ne_failed s c.name _ _ _)
    | failed parent => exact Fails.orphaned parent hcyclic habove
    | slots parent ids =>
      simp only [habove] at hfailed ⊢
      split
      · next hshort => exact Fails.shrunk parent ids hcyclic habove hshort
      · next hlong =>
        rw [if_neg hlong] at hfailed
        exact absurd hfailed (layClass_outcome?_ne_failed s c.name _ _ _)

/-- Any observations of that number give the same failure. -/
theorem Fails.settle_eq (hfails : Fails h s c observed.length t)
    (hobs : store.get? c.name = some observed) : settle h store s c = t := by
  unfold settle
  simp only [hobs]
  cases hfails with
  | cyclic hcyclic => rw [if_pos hcyclic]
  | orphaned parent hcyclic habove => simp [hcyclic, settleObserved, habove]
  | shrunk parent ids hcyclic habove hshort => simp [hcyclic, settleObserved, habove, hshort]

/-- A failure of another kind than too few slots does not depend on the number. -/
theorem Fails.of_finding {count : Nat} (hfails : Fails h s c count t) {d : Diagnostic}
    (hd : d ∈ t.diagnostics) (hnew : d ∉ s.diagnostics) (hkind : d.kind ≠ .slotCountShrink)
    (count' : Nat) : Fails h s c count' t := by
  cases hfails with
  | cyclic hcyclic => exact Fails.cyclic hcyclic
  | orphaned parent hcyclic habove => exact Fails.orphaned parent hcyclic habove
  | shrunk parent ids hcyclic habove hshort =>
    have hfound := (List.mem_append.mp hd).resolve_left hnew
    rw [List.mem_singleton.mp hfound] at hkind
    exact absurd rfl hkind

/-- Two stores hold observations of the same classes, and every step of a run that ends in a
state is the same with both. -/
structure Alike (h : Hierarchy) (store store' : ObservationStore) (last : State) : Prop where
  contains_eq : ∀ name, store'.contains name = store.contains name
  settle_eq : ∀ s c, Leads h store State.initial s → Ready h store s c →
    Leads h store (settle h store s c) last → settle h store' s c = settle h store s c

namespace Alike

theorem needsParent_eq (halike : Alike h store store' last) (name : String) :
    needsParent h store' name = needsParent h store name := by
  rw [needsParent, needsParent, halike.contains_eq]

theorem unsettled_eq (halike : Alike h store store' last) (s : State) (steps : Nat)
    (name : String) : unsettled h store' s steps name = unsettled h store s steps name := by
  induction steps generalizing name with
  | zero => rfl
  | succ steps ih => simp only [unsettled, halike.needsParent_eq, ih]

theorem foldl_settle_eq (halike : Alike h store store' last)
    (hs : Leads h store State.initial s) {cs : List ClassNode} (hcs : Scheduled h store s cs)
    (hlast : Leads h store (cs.foldl (settle h store) s) last) :
    cs.foldl (settle h store') s = cs.foldl (settle h store) s := by
  induction cs generalizing s with
  | nil => rfl
  | cons c cs ih =>
    obtain ⟨hc, hrest⟩ := hcs
    -- The stores agree on the steps of this run only, so the rest is needed to know this one.
    rw [List.foldl_cons, List.foldl_cons,
      halike.settle_eq s c hs hc (hrest.leads.trans hlast)]
    exact ih (hs.settle hc) hrest hlast

theorem foldl_resolve_eq (halike : Alike h store store' last)
    (hs : Leads h store State.initial s) {names : List String}
    (hlast : Leads h store (names.foldl (resolve h store) s) last) :
    names.foldl (resolve h store') s = names.foldl (resolve h store) s := by
  induction names generalizing s with
  | nil => rfl
  | cons name names ih =>
    have hname : resolve h store' s name = resolve h store s name := by
      rw [resolve, resolve, halike.unsettled_eq]
      exact halike.foldl_settle_eq hs (scheduled_resolve s name)
        ((leads_foldl_resolve _ names).trans hlast)
    rw [List.foldl_cons, List.foldl_cons, hname]
    exact ih (hs.trans (leads_resolve s name)) hlast

end Alike

/-- The findings about a class that is settled in a run come with the step that settles it. -/
theorem new_of_finding (hs : Leads h store State.initial s) (hc : Ready h store s c)
    (hlast : Leads h store (settle h store s c) last) {d : Diagnostic}
    (hd : d ∈ last.diagnostics) (hclass : d.className = c.name) :
    d ∈ (settle h store s c).diagnostics ∧ d ∉ s.diagnostics := by
  constructor
  · by_contra hnew
    have hself := settle_outcome?_self h store s c
    rw [← hclass, (settled_of_new_finding hlast hd hnew).1] at hself
    cases hself
  · intro hold
    have hsettled := (settled_of_new_finding hs hold (List.not_mem_nil)).2
    rw [hclass, hc.fresh] at hsettled
    cases hsettled

/-- What a step to a class leads to is what the class became. -/
theorem settle_outcome?_eq (hlast : Leads h store (settle h store s c) last) :
    (settle h store s c).outcome? c.name = last.outcome? c.name := by
  obtain ⟨o, ho⟩ := Option.isSome_iff_exists.mp (settle_outcome?_self h store s c)
  rw [ho, hlast.outcome?_eq ho]

/-- Stores that differ in the observations of a failed class only are alike. -/
theorem alike_of_failed {name : String} {other : List Observation}
    (hfailed : last.outcome? name = some .failed) (hobs : store.get? name = some observed)
    (hother : store'.get? name = some other)
    (hrest : ∀ n, n ≠ name → store'.get? n = store.get? n)
    (hlength : other.length = observed.length ∨
      ∃ d ∈ last.diagnostics, d.className = name ∧ d.kind ≠ .slotCountShrink) :
    Alike h store store' last where
  contains_eq n := by
    by_cases hn : n = name
    · subst hn
      simp [ObservationStore.contains, hobs, hother]
    · simp [ObservationStore.contains, hrest n hn]
  settle_eq s c hs hc hlast := by
    by_cases hname : c.name = name
    · subst hname
      have hfails := fails_of_outcome? hobs ((settle_outcome?_eq hlast).trans hfailed)
      rcases hlength with hlength | ⟨d, hd, hclass, hkind⟩
      · rw [← hlength] at hfails
        exact hfails.settle_eq hother
      · obtain ⟨hstep, hnew⟩ := new_of_finding hs hc hlast hd hclass
        exact (hfails.of_finding hstep hnew hkind other.length).settle_eq hother
    · unfold settle
      rw [hrest c.name hname]

/-- A failed class could have been observed with anything else of the same number, and the whole
result of the merge would be the same. If it is its own ancestor or its parent failed, the number
does not matter either. -/
theorem run_replace_of_failed (h : Hierarchy) {store : ObservationStore} {name : String}
    {observed : List Observation} (entry : StoredClass)
    (hfailed : (resolveAll h store (h.nodes.map ClassNode.name)).outcome? name = some .failed)
    (hobs : store.get? name = some observed)
    (hlength : entry.slots.length = observed.length ∨ ∃ d ∈ (run h store).diagnostics,
      d.className = name ∧ (d.kind = .cyclicAncestry ∨ d.kind = .unresolvedAncestor)) :
    run h (store.replace name entry) = run h store := by
  have halike : Alike h store (store.replace name entry)
      (resolveAll h store (h.nodes.map ClassNode.name)) := by
    refine alike_of_failed hfailed hobs ((store.get?_replace name name entry).trans (if_pos rfl))
      (fun n hn => (store.get?_replace name n entry).trans (if_neg hn)) (hlength.imp_right ?_)
    rintro ⟨d, hd, hclass, hkind⟩
    refine ⟨d, hd, hclass, ?_⟩
    rcases hkind with hkind | hkind <;> simp [hkind]
  have hstate : resolveAll h (store.replace name entry) (h.nodes.map ClassNode.name) =
      resolveAll h store (h.nodes.map ClassNode.name) :=
    halike.foldl_resolve_eq Leads.refl Leads.refl
  rw [run, run, hstate]

/-- Tape, which has too few slots, with another slot, and Loop, its own parent, with two. -/
theorem run_replace_of_failed_sample :
    run sampleHierarchy (sampleStore.replace "Tape" ⟨"c", [.pureVirtual 0]⟩) =
        run sampleHierarchy sampleStore ∧
      run sampleHierarchy
          (sampleStore.replace "Loop" ⟨"c", [.concrete 0 "turn", .concrete 1 "stop"]⟩) =
        run sampleHierarchy sampleStore :=
  ⟨run_replace_of_failed sampleHierarchy _ (by decide) rfl (Or.inl rfl),
    run_replace_of_failed sampleHierarchy _ (by decide) rfl
      (Or.inr ⟨cyclicAncestry "Loop", by decide, rfl, Or.inl rfl⟩)⟩

end Merge

end VtableMerge
