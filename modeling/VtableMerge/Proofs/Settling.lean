import VtableMerge.Merge
import VtableMerge.Proofs.Ancestry

/-!
Resolving names settles classes one at a time: a class that is not settled yet, after its parent
where the parent matters. Every state of a merge is reached by such steps, whatever names are
resolved and in whatever order, so a property of all states is proved for one step. `Settles`
lists everything that a step can do.
-/
namespace VtableMerge.Merge

namespace State

def vtable? (s : State) (name : String) : Option (List VtableSlot) :=
  match s.outcome? name with
  | some (.resolved slots) => some slots
  | _ => none

def isResolved (s : State) (name : String) : Bool := (s.vtable? name).isSome

/-- The vtable of the parent, empty unless the parent is resolved. -/
def parentVtable (s : State) (c : ClassNode) : List VtableSlot :=
  (c.parent.bind s.vtable?).getD []

theorem vtable?_eq_some_iff {s : State} {name : String} {slots : List VtableSlot} :
    s.vtable? name = some slots ↔ s.outcome? name = some (.resolved slots) := by
  unfold vtable?
  split <;> simp_all

theorem isResolved_iff {s : State} {name : String} :
    s.isResolved name = true ↔ ∃ slots, s.vtable? name = some slots := Option.isSome_iff_exists

theorem vtable?_congr {s t : State} {name : String} (ho : s.outcome? name = t.outcome? name) :
    s.vtable? name = t.vtable? name := by
  simp only [vtable?, ho]

theorem outcome?_of_cons {s t : State} {name : String} {o : Outcome}
    (ht : t.outcomes = (name, o) :: s.outcomes) (other : String) :
    t.outcome? other = if other = name then some o else s.outcome? other := by
  simp only [outcome?, ht, List.lookup_cons]
  by_cases hname : other = name
  · simp [hname]
  · simp [hname, beq_eq_false_iff_ne.mpr hname]

end State

section Steps
variable (h : Hierarchy) (store : ObservationStore)

/-- A step settles its class without slots or lays slots for it, and what it finds by itself is
about its class. -/
theorem settle_cases (s : State) (c : ClassNode) :
    (∃ o found, (∀ d ∈ found, d.className = c.name) ∧
      settle h store s c = s.settleAs c.name o found) ∨
    ∃ ids observed found, (∀ d ∈ found, d.className = c.name) ∧
      settle h store s c = layClass s c.name ids observed found := by
  have hsingle : ∀ (kind : DiagnosticKind) (detail : String),
      ∀ d ∈ [Diagnostic.ofClass c.name kind detail], d.className = c.name :=
    fun _ _ => List.forall_mem_singleton.mpr rfl
  unfold settle settleObserved
  split
  · exact .inl ⟨_, _, List.forall_mem_nil _, rfl⟩
  · split
    · exact .inl ⟨_, _, hsingle _ _, rfl⟩
    · split
      · exact .inr ⟨_, _, _, List.forall_mem_nil _, rfl⟩
      · exact .inr ⟨_, _, _, hsingle _ _, rfl⟩
      · exact .inl ⟨_, _, hsingle _ _, rfl⟩
      · split
        · exact .inl ⟨_, _, hsingle _ _, rfl⟩
        · exact .inr ⟨_, _, _, List.forall_mem_nil _, rfl⟩

theorem settle_outcomes (s : State) (c : ClassNode) :
    ∃ o, (settle h store s c).outcomes = (c.name, o) :: s.outcomes := by
  rcases settle_cases h store s c with ⟨o, found, -, hstep⟩ | ⟨ids, observed, found, -, hstep⟩
  · exact ⟨o, by rw [hstep]; rfl⟩
  · exact ⟨.resolved (layFrom c.name 0 s.table ids observed).slots, by rw [hstep]; rfl⟩

theorem settle_outcome?_of_ne (s : State) (c : ClassNode) {name : String}
    (hne : name ≠ c.name) : (settle h store s c).outcome? name = s.outcome? name := by
  obtain ⟨o, ho⟩ := settle_outcomes h store s c
  rw [State.outcome?_of_cons ho, if_neg hne]

theorem settle_outcome?_self (s : State) (c : ClassNode) :
    ((settle h store s c).outcome? c.name).isSome = true := by
  obtain ⟨o, ho⟩ := settle_outcomes h store s c
  rw [State.outcome?_of_cons ho, if_pos rfl]
  rfl

structure Ready (s : State) (c : ClassNode) : Prop where
  known : h.get? c.name = some c
  fresh : s.outcome? c.name = none
  supported : needsParent h store c.name = true → ∀ parent, c.parent = some parent →
    h.contains parent = true → (s.outcome? parent).isSome = true

inductive Leads (s : State) : State → Prop
  | refl : Leads s s
  | settle {t : State} {c : ClassNode} (ht : Leads s t) (hc : Ready h store t c) :
      Leads s (settle h store t c)

end Steps

variable {h : Hierarchy} {store : ObservationStore}

theorem Leads.trans {s t u : State} (hst : Leads h store s t) (htu : Leads h store t u) :
    Leads h store s u := by
  induction htu with
  | refl => exact hst
  | settle _ hc ih => exact ih.settle hc

/-- What a class became, it stays. -/
theorem Leads.outcome?_eq {s t : State} (hst : Leads h store s t) {name : String} {o : Outcome}
    (ho : s.outcome? name = some o) : t.outcome? name = some o := by
  induction hst with
  | refl => exact ho
  | @settle t c _ hc ih =>
    have hne : name ≠ c.name := by
      rintro rfl
      rw [hc.fresh] at ih
      cases ih
    rw [settle_outcome?_of_ne h store t c hne, ih]

/-- The walk upward from a class ends within a number of steps: at a root, outside the
hierarchy, or at a class that is settled without its parent. -/
def Grounded (h : Hierarchy) (store : ObservationStore) : Nat → String → Prop
  | 0, name => h.contains name = false
  | steps + 1, name => needsParent h store name = true →
      ∀ parent, h.parentName? name = some parent → Grounded h store steps parent

theorem not_isCyclic_of_needsParent {name : String} (hneeds : needsParent h store name = true) :
    h.isCyclic name = false := by
  simp only [needsParent, Bool.and_eq_true, Bool.not_eq_true'] at hneeds
  exact hneeds.2

/-- A walk that does not end passes classes only, and each of them needs its parent. -/
theorem exists_climb_of_not_grounded {steps : Nat} {name : String}
    (hground : ¬ Grounded h store steps name) :
    ∀ i ≤ steps, ∃ passed, h.climb i name = some passed ∧ h.contains passed = true ∧
      (i < steps → needsParent h store passed = true) := by
  induction steps generalizing name with
  | zero =>
    intro i hi
    obtain rfl : i = 0 := by omega
    exact ⟨name, rfl, by simpa [Grounded] using hground, by omega⟩
  | succ steps ih =>
    simp only [Grounded, not_forall] at hground
    obtain ⟨hneeds, parent, hparent, hrest⟩ := hground
    intro i hi
    cases i with
    | zero => exact ⟨name, rfl, h.contains_of_parentName? hparent, fun _ => hneeds⟩
    | succ i =>
      obtain ⟨passed, hclimb, hcontains, hpassed⟩ := ih hrest i (by omega)
      refine ⟨passed, ?_, hcontains, fun hlt => hpassed (by omega)⟩
      simp only [Hierarchy.climb, hparent, Option.bind_some, hclimb]

/-- As many steps as there are classes are enough: otherwise a class would be passed twice, and
a cyclic class does not need its parent. -/
theorem grounded_size (name : String) : Grounded h store h.size name := by
  by_contra hground
  have hwalk := exists_climb_of_not_grounded hground
  obtain ⟨i, j, passed, hij, hj, hi, hj'⟩ := h.climb_meets_twice (Nat.le_refl _)
    (fun i hi => (hwalk i hi).imp fun _ hpassed => ⟨hpassed.1, hpassed.2.1⟩)
  obtain ⟨same, hsame, -, hneeds⟩ := hwalk i (by omega)
  obtain rfl : same = passed := by simpa [hsame] using hi
  have hsplit : j = i + (j - i) := by omega
  rw [hsplit, h.climb_add, hsame] at hj'
  have hcyclic := h.isCyclic_iff_climb.mpr ⟨j - i, by omega, hj'⟩
  rw [not_isCyclic_of_needsParent (hneeds (by omega))] at hcyclic
  cases hcyclic

/-- Nothing has to be settled for a name that is settled or outside the hierarchy. -/
theorem unsettled_eq_nil {s : State} {name : String}
    (hdone : (s.outcome? name).isSome = true ∨ h.get? name = none) (steps : Nat) :
    unsettled h store s steps name = [] := by
  cases steps with
  | zero => rfl
  | succ steps =>
    rw [unsettled]
    rcases hdone with hsettled | hnone
    · rw [if_pos hsettled]
    · rw [hnone, ite_self]

theorem get?_of_mem_unsettled {s : State} {steps : Nat} {name : String} {c : ClassNode}
    (hc : c ∈ unsettled h store s steps name) : h.get? c.name = some c := by
  induction steps generalizing name with
  | zero => cases hc
  | succ steps ih =>
    rw [unsettled] at hc
    split at hc
    · cases hc
    · split at hc
      · cases hc
      · next d hd =>
        have hself : h.get? d.name = some d := by rw [h.name_of_get? hd, hd]
        split at hc
        · split at hc
          · obtain rfl := List.mem_singleton.mp hc
            exact hself
          · rcases List.mem_cons.mp hc with rfl | hc
            · exact hself
            · exact ih hc
        · obtain rfl := List.mem_singleton.mp hc
          exact hself

theorem exists_climb_of_mem_unsettled {s : State} {steps : Nat} {name : String} {c : ClassNode}
    (hc : c ∈ unsettled h store s steps name) : ∃ n, h.climb n name = some c.name := by
  induction steps generalizing name with
  | zero => simp [unsettled] at hc
  | succ steps ih =>
    rw [unsettled] at hc
    split at hc
    · cases hc
    · split at hc
      · cases hc
      · next d hd =>
        have hself : ∃ n, h.climb n name = some d.name := ⟨0, by rw [h.name_of_get? hd]; rfl⟩
        split at hc
        · split at hc
          · obtain rfl : c = d := by simpa using hc
            exact hself
          · next parent hparent =>
            rcases List.mem_cons.mp hc with rfl | hc
            · exact hself
            · obtain ⟨n, hn⟩ := ih hc
              refine ⟨n + 1, ?_⟩
              rw [Hierarchy.climb, h.parentName?_of_get? hd, hparent]
              exact hn
        · obtain rfl : c = d := by simpa using hc
          exact hself

/-- A class that needs its parent is not cyclic, so it is not met above itself. -/
theorem ne_of_mem_unsettled_parent {s : State} {steps : Nat} {c d : ClassNode} {parent : String}
    (hneeds : needsParent h store c.name = true) (hlink : h.parentName? c.name = some parent)
    (hd : d ∈ unsettled h store s steps parent) : d.name ≠ c.name := by
  intro hname
  obtain ⟨n, hn⟩ := exists_climb_of_mem_unsettled hd
  have hcyclic := h.isCyclic_iff_climb.mpr ⟨n + 1, by omega, by
    rw [Hierarchy.climb, hlink, ← hname]
    exact hn⟩
  rw [not_isCyclic_of_needsParent hneeds] at hcyclic
  cases hcyclic

theorem foldl_settle_outcome? {s : State} {cs : List ClassNode} {name : String}
    (hnot : ∀ c ∈ cs, c.name ≠ name) :
    (cs.foldl (settle h store) s).outcome? name = s.outcome? name := by
  induction cs generalizing s with
  | nil => rfl
  | cons c cs ih =>
    rw [List.foldl_cons, ih fun d hd => hnot d (List.mem_cons_of_mem _ hd)]
    exact settle_outcome?_of_ne h store s c (Ne.symm (hnot c List.mem_cons_self))

def Scheduled (h : Hierarchy) (store : ObservationStore) : State → List ClassNode → Prop
  | _, [] => True
  | s, c :: cs => Ready h store s c ∧ Scheduled h store (settle h store s c) cs

theorem Scheduled.append {s : State} {cs ds : List ClassNode} (hcs : Scheduled h store s cs)
    (hds : Scheduled h store (cs.foldl (settle h store) s) ds) :
    Scheduled h store s (cs ++ ds) := by
  induction cs generalizing s with
  | nil => exact hds
  | cons c cs ih => exact ⟨hcs.1, ih hcs.2 hds⟩

theorem Scheduled.leads {s : State} {cs : List ClassNode} (hcs : Scheduled h store s cs) :
    Leads h store s (cs.foldl (settle h store) s) := by
  induction cs generalizing s with
  | nil => exact Leads.refl
  | cons c cs ih => exact (Leads.refl.settle hcs.1).trans (ih hcs.2)

/-- From the top down, each of the unsettled classes above a class is ready in its turn, and so
is the class itself. -/
theorem scheduled_unsettled {steps : Nat} {name : String} (s : State)
    (hground : Grounded h store steps name) :
    Scheduled h store s (unsettled h store s steps name).reverse ∧
      (h.contains name = true →
        (((unsettled h store s steps name).reverse.foldl (settle h store) s).outcome?
          name).isSome = true) := by
  induction steps generalizing name with
  | zero =>
    refine ⟨trivial, fun hcontains => ?_⟩
    rw [Grounded, hcontains] at hground
    cases hground
  | succ steps ih =>
    rw [unsettled]
    split
    · next hsettled => exact ⟨trivial, fun _ => hsettled⟩
    · next hfresh =>
      have hfresh : s.outcome? name = none := by simpa using hfresh
      split
      · next hget =>
        refine ⟨trivial, fun hcontains => ?_⟩
        obtain ⟨c, hc⟩ := h.contains_iff_exists.mp hcontains
        rw [hget] at hc
        cases hc
      · next c hget =>
        obtain rfl := h.name_of_get? hget
        have hsingle (hparent : needsParent h store c.name = true → c.parent = none) :
            Scheduled h store s [c] :=
          ⟨⟨hget, hfresh, fun hneeds parent hp => by
            rw [hparent hneeds] at hp
            cases hp⟩, trivial⟩
        split
        · next hneeds =>
          split
          · next hroot =>
            exact ⟨hsingle fun _ => hroot, fun _ => settle_outcome?_self h store s c⟩
          · next parent hparent =>
            have hlink : h.parentName? c.name = some parent := by
              rw [h.parentName?_of_get? hget, hparent]
            obtain ⟨habove, hsettled⟩ := ih (hground hneeds parent hlink)
            simp only [List.reverse_cons, List.foldl_append, List.foldl_cons, List.foldl_nil]
            refine ⟨habove.append ⟨⟨hget, ?_, ?_⟩, trivial⟩,
              fun _ => settle_outcome?_self h store _ c⟩
            · rw [foldl_settle_outcome?, hfresh]
              intro d hd
              exact ne_of_mem_unsettled_parent hneeds hlink (List.mem_reverse.mp hd)
            · intro _ p hp hcontains
              obtain rfl : parent = p := by simpa [hparent] using hp
              exact hsettled hcontains
        · next hneeds =>
          exact ⟨hsingle fun hyes => absurd hyes hneeds,
            fun _ => settle_outcome?_self h store s c⟩

theorem scheduled_resolve (s : State) (name : String) :
    Scheduled h store s (unsettled h store s h.size name).reverse :=
  (scheduled_unsettled s (grounded_size name)).1

theorem leads_resolve (s : State) (name : String) :
    Leads h store s (resolve h store s name) :=
  (scheduled_resolve s name).leads

theorem resolve_outcome?_isSome (s : State) {name : String} (hname : h.contains name = true) :
    ((resolve h store s name).outcome? name).isSome = true :=
  (scheduled_unsettled s (grounded_size name)).2 hname

theorem leads_foldl_resolve (s : State) (names : List String) :
    Leads h store s (names.foldl (resolve h store) s) := by
  induction names generalizing s with
  | nil => exact Leads.refl
  | cons name names ih => exact (leads_resolve s name).trans (ih _)

theorem leads_resolveAll (names : List String) :
    Leads h store State.initial (resolveAll h store names) :=
  leads_foldl_resolve State.initial names

theorem resolveAll_outcome?_isSome {names : List String} {name : String} (hmem : name ∈ names)
    (hname : h.contains name = true) :
    ((resolveAll h store names).outcome? name).isSome = true := by
  obtain ⟨front, back, rfl⟩ := List.append_of_mem hmem
  simp only [resolveAll, List.foldl_append, List.foldl_cons]
  have hself : ((resolve h store (front.foldl (resolve h store) State.initial) name).outcome?
      name).isSome = true := resolve_outcome?_isSome _ hname
  obtain ⟨o, ho⟩ := Option.isSome_iff_exists.mp hself
  rw [(leads_foldl_resolve _ back).outcome?_eq ho]
  rfl

section Cases

def rootFindings (h : Hierarchy) (c : ClassNode) : Diagnostics :=
  match c.parent with
  | none => []
  | some parent => if h.contains parent then [] else [missingParent c.name parent]

/-- Only a parent outside the hierarchy is found missing, and only once. -/
theorem rootFindings_cases (h : Hierarchy) (c : ClassNode) :
    rootFindings h c = [] ∨
      ∃ parent, c.parent = some parent ∧ h.contains parent = false ∧
        rootFindings h c = [missingParent c.name parent] := by
  unfold rootFindings
  split
  · exact Or.inl rfl
  · next parent hparent =>
    by_cases hinside : h.contains parent = true
    · rw [if_pos hinside]
      exact Or.inl rfl
    · rw [if_neg hinside]
      exact Or.inr ⟨parent, hparent, by simpa using hinside, rfl⟩

theorem rootFindings_eq_nil {c : ClassNode}
    (hinside : ∀ parent, c.parent = some parent → h.contains parent = true) :
    rootFindings h c = [] := by
  rcases rootFindings_cases h c with hnil | ⟨parent, hparent, hmissing, -⟩
  · exact hnil
  · rw [hinside parent hparent] at hmissing
    cases hmissing

theorem className_of_mem_rootFindings {c : ClassNode} {d : Diagnostic} (hd : d ∈ rootFindings h c) :
    d.className = c.name := by
  rcases rootFindings_cases h c with hnil | ⟨parent, -, -, hsome⟩
  · rw [hnil] at hd
    cases hd
  · rw [hsome, List.mem_singleton] at hd
    rw [hd]
    rfl

/-- Everything that settling a class can do. -/
inductive Settles (h : Hierarchy) (store : ObservationStore) (s : State) (c : ClassNode) :
    State → Prop
  | unobserved (hobs : store.get? c.name = none) :
      Settles h store s c (s.settleAs c.name .unobserved [])
  | cyclic (observed : List Observation) (hobs : store.get? c.name = some observed)
      (hcyclic : h.isCyclic c.name = true) :
      Settles h store s c (s.settleAs c.name .failed [cyclicAncestry c.name])
  | orphaned (observed : List Observation) (parent : String)
      (hobs : store.get? c.name = some observed) (hcyclic : h.isCyclic c.name = false)
      (hparent : c.parent = some parent) (hinside : h.contains parent = true)
      (hfailed : s.outcome? parent = some .failed) :
      Settles h store s c (s.settleAs c.name .failed [unresolvedAncestor c.name parent])
  | shrunk (observed : List Observation) (parent : String) (slots : List VtableSlot)
      (hobs : store.get? c.name = some observed) (hcyclic : h.isCyclic c.name = false)
      (hparent : c.parent = some parent) (hinside : h.contains parent = true)
      (hslots : s.vtable? parent = some slots) (hlength : observed.length < slots.length) :
      Settles h store s c (s.settleAs c.name .failed
        [slotCountShrink c.name parent slots.length observed.length])
  | resolved (observed : List Observation) (hobs : store.get? c.name = some observed)
      (hcyclic : h.isCyclic c.name = false)
      (hparent : ∀ parent, c.parent = some parent → s.outcome? parent ≠ some .failed)
      (hlength : (s.parentVtable c).length ≤ observed.length) :
      Settles h store s c (layClass s c.name ((s.parentVtable c).map VtableSlot.id) observed
        (rootFindings h c))

def Inside (h : Hierarchy) (s : State) : Prop :=
  ∀ name, h.contains name = false → s.outcome? name = none

theorem settles_settle {s : State} (hinside : Inside h s) (c : ClassNode) :
    Settles h store s c (settle h store s c) := by
  unfold settle
  split
  · next hobs => exact Settles.unobserved hobs
  · next observed hobs =>
    split
    · next hcyclic => exact Settles.cyclic observed hobs hcyclic
    · next hcyclic =>
      have hcyclic : h.isCyclic c.name = false := by simpa using hcyclic
      have hresolved := Settles.resolved (s := s) observed hobs hcyclic
      unfold settleObserved inheritance
      cases hparent : c.parent with
      | none =>
        simpa [State.parentVtable, rootFindings, hparent] using hresolved
      | some parent =>
        by_cases hcontains : h.contains parent = true
        · have hlaid : rootFindings h c = [] := by simp [rootFindings, hparent, hcontains]
          simp only [hcontains, if_true]
          cases ho : s.outcome? parent with
          | none =>
            have hvtable : s.parentVtable c = [] := by
              simp [State.parentVtable, State.vtable?, hparent, ho]
            simpa [hlaid, hvtable, hparent, ho] using hresolved
          | some o =>
            cases o with
            | failed => exact Settles.orphaned observed parent hobs hcyclic hparent hcontains ho
            | unobserved =>
              have hvtable : s.parentVtable c = [] := by
                simp [State.parentVtable, State.vtable?, hparent, ho]
              simpa [hlaid, hvtable, hparent, ho] using hresolved
            | resolved slots =>
              have hslots : s.vtable? parent = some slots := State.vtable?_eq_some_iff.mpr ho
              have hvtable : s.parentVtable c = slots := by
                simp [State.parentVtable, hparent, hslots]
              simp only [List.length_map]
              split
              · next hshort =>
                exact Settles.shrunk observed parent slots hobs hcyclic hparent hcontains hslots
                  hshort
              · next hlong =>
                simpa [hlaid, hvtable, hparent, ho, Nat.le_of_not_lt hlong] using hresolved
        · have hcontains : h.contains parent = false := by simpa using hcontains
          have hnone := hinside parent hcontains
          have hvtable : s.parentVtable c = [] := by
            simp [State.parentVtable, State.vtable?, hparent, hnone]
          simpa [rootFindings, hcontains, hvtable, hparent, hnone] using hresolved

theorem inside_initial (h : Hierarchy) : Inside h State.initial := fun _ _ => rfl

theorem inside_settle {s : State} {c : ClassNode} (hinside : Inside h s)
    (hc : Ready h store s c) : Inside h (settle h store s c) := by
  intro name hname
  have hne : name ≠ c.name := by
    rintro rfl
    rw [h.contains_iff_exists.mpr ⟨c, hc.known⟩] at hname
    cases hname
  rw [settle_outcome?_of_ne h store s c hne, hinside name hname]

end Cases

end VtableMerge.Merge
