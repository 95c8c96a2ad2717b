import VtableMerge.Proofs.Sharing

/-!
A merge is a family of folds, one for each prototype. The prototype of a slot starts as the
declaring class observes it. Each class settled later that is linked to the declaring class folds
its own observation of the slot into it, once, and nothing else touches it. The conflicts of the
merge are the conflicts of these folds.
-/
namespace VtableMerge

def ObservationStore.slot? (store : ObservationStore) (name : String) (slotIndex : Nat) :
    Option Observation :=
  (store.get? name).bind fun observed => observed[slotIndex]?

def Diagnostics.conflicts (ds : Diagnostics) : Diagnostics :=
  ds.filter fun d => d.kind.category == .conflict

theorem Diagnostics.conflicts_append (ds es : Diagnostics) :
    Diagnostics.conflicts (ds ++ es) = ds.conflicts ++ es.conflicts := List.filter_append ..

namespace Merge

def after (name : String) : List String → List String
  | [] => []
  | other :: rest => if other = name then rest else after name rest

theorem after_append_of_mem {name : String} {names : List String} (hname : name ∈ names)
    (more : List String) : after name (names ++ more) = after name names ++ more := by
  induction names with
  | nil => cases hname
  | cons other names ih =>
    simp only [List.cons_append, after]
    split
    · rfl
    · next hne =>
      exact ih ((List.mem_cons.mp hname).resolve_left fun heq => hne heq.symm)

theorem after_append_self {name : String} {names : List String} (hname : name ∉ names)
    (more : List String) : after name (names ++ name :: more) = more := by
  induction names with
  | nil => simp [after]
  | cons other names ih =>
    rw [List.mem_cons, not_or] at hname
    simp only [List.cons_append, after, if_neg (Ne.symm hname.1), ih hname.2]

theorem mem_of_mem_after {name other : String} {names : List String}
    (hother : other ∈ after name names) : other ∈ names := by
  induction names with
  | nil => exact hother
  | cons front names ih =>
    rw [after] at hother
    split at hother
    · exact List.mem_cons_of_mem _ hother
    · exact List.mem_cons_of_mem _ (ih hother)

section Linked
variable {h : Hierarchy} {s : State}

/-- The shortest walk between linked classes has at most as many steps as there are classes. -/
theorem lineal_iff {name above : String} :
    Lineal h s name above ↔ ∃ n, n ≤ h.size ∧ h.climb n name = some above ∧
      ∀ i ≤ n, ∀ passed, h.climb i name = some passed → s.isResolved passed = true := by
  constructor
  · intro hlineal
    classical
    obtain ⟨n, hclimb, hresolved⟩ := hlineal.exists_climb
    have hsome : ∃ k, h.climb k name = some above := ⟨n, hclimb⟩
    have hleast : Nat.find hsome ≤ n := Nat.find_min' hsome hclimb
    refine ⟨Nat.find hsome, ?_, Nat.find_spec hsome, fun i hi => hresolved i (hi.trans hleast)⟩
    rcases Nat.eq_zero_or_pos n with rfl | hpos
    · omega
    · obtain ⟨k, -, hk, hshort⟩ := h.exists_climb_le_size hpos hclimb
      exact (Nat.find_min' hsome hshort).trans hk
  · rintro ⟨n, -, hclimb, hresolved⟩
    exact lineal_of_climb hclimb hresolved

instance (name above : String) : Decidable (Lineal h s name above) :=
  decidable_of_iff _ lineal_iff.symm

end Linked

/-- The resolved classes in the order in which they were settled. -/
def State.order (s : State) : List String :=
  (s.outcomes.map Prod.fst).reverse.filter s.isResolved

/-- The classes that fold an observation into the prototypes of a declaring class. -/
def contributors (h : Hierarchy) (s : State) (order : List String) (declaring : String) :
    List String :=
  (after declaring order).filter fun name => decide (Lineal h s name declaring)

def enrichBy (store : ObservationStore) (slotIndex : Nat) (folded : Prototype × Diagnostics)
    (name : String) : Prototype × Diagnostics :=
  match store.slot? name slotIndex with
  | none => folded
  | some o =>
    let enriched := folded.1.enrich o name slotIndex
    (enriched.prototype, folded.2 ++ enriched.conflicts)

/-- The prototype of a slot made anew from the observations, with the conflicts on the way. -/
def refold (h : Hierarchy) (store : ObservationStore) (s : State) (order : List String)
    (p : Prototype) : Option (Prototype × Diagnostics) :=
  (store.slot? p.declaringClass p.slotIndex).map fun o =>
    (contributors h s order p.declaringClass).foldl (enrichBy store p.slotIndex)
      (Prototype.declared p.id p.declaringClass p.slotIndex o, [])

def refoldConflicts (h : Hierarchy) (store : ObservationStore) (s : State)
    (order : List String) (p : Prototype) : Diagnostics :=
  ((refold h store s order p).map Prod.snd).getD []

/-- The table of a state is made of independent folds over the resolved classes in an order. -/
structure FoldsInto (h : Hierarchy) (store : ObservationStore) (s : State)
    (order : List String) : Prop where
  nodup : order.Nodup
  mem_iff : ∀ name, name ∈ order ↔ s.isResolved name = true
  parents_first : ∀ name parent, s.isResolved name = true → s.isResolved parent = true →
    h.parentName? name = some parent → name ∈ after parent order
  /-- Each contributor observes the slot. -/
  contributed : ∀ p ∈ s.table.prototypes, ∀ name ∈ contributors h s order p.declaringClass,
    (store.slot? name p.slotIndex).isSome = true
  prototypes : ∀ p ∈ s.table.prototypes, ∃ conflicts,
    refold h store s order p = some (p, conflicts)
  /-- Every conflict of a fold is reported once, and no other one. -/
  conflicts : s.diagnostics.conflicts.Perm
    (s.table.prototypes.flatMap (refoldConflicts h store s order))

variable {h : Hierarchy} {store : ObservationStore} {s t : State} {c : ClassNode}

section Order

theorem outcome?_eq_none_iff {name : String} :
    s.outcome? name = none ↔ name ∉ s.outcomes.map Prod.fst := by
  rw [State.outcome?, List.lookup_eq_none_iff]
  simp only [bne_iff_ne, List.mem_map, not_exists, not_and, ne_comm]

theorem mem_order {name : String} : name ∈ s.order ↔ s.isResolved name = true := by
  rw [State.order, List.mem_filter, List.mem_reverse, and_iff_right_iff_imp]
  intro hname
  by_contra hnot
  rw [← outcome?_eq_none_iff] at hnot
  simp [State.isResolved, State.vtable?, hnot] at hname

theorem order_of_unlaid (hc : Ready h store s c) (ht : Unlaid s c t) : t.order = s.order := by
  obtain ⟨o, ho⟩ := ht.outcomes
  have hresolved : t.isResolved = s.isResolved := funext ht.isResolved_eq
  have hnot : s.isResolved c.name = false := by
    rw [State.isResolved, hc.vtable?_eq_none]
    rfl
  simp [State.order, ho, hresolved, hnot]

theorem order_of_laid {observed : List Observation} {slots : List VtableSlot}
    (hc : Ready h store s c) (ht : Laid s c observed slots t) :
    t.order = s.order ++ [c.name] := by
  have hother : ∀ name ∈ (s.outcomes.map Prod.fst).reverse,
      t.isResolved name = s.isResolved name := by
    intro name hname
    have hne : name ≠ c.name := by
      rintro rfl
      exact outcome?_eq_none_iff.mp hc.fresh (List.mem_reverse.mp hname)
    rw [State.isResolved, ht.vtable?_of_ne hne, State.isResolved]
  simp only [State.order, ht.outcomes, List.map_cons, List.reverse_cons, List.filter_append,
    List.filter_cons, ht.isResolved_self, if_true, List.filter_nil, List.filter_congr hother]

end Order

section Linked
variable {observed : List Observation} {slots : List VtableSlot}

/-- The links of classes settled before stay, since none of them has the new class above it. -/
theorem lineal_of_laid_iff (hs : Coherent h store s) (hc : Ready h store s c)
    (ht : Laid s c observed slots t) {name above : String} (hne : name ≠ c.name) :
    Lineal h t name above ↔ Lineal h s name above := by
  refine ⟨fun hlineal => ?_, fun hlineal => hlineal.mono fun _ => ht.isResolved_mono⟩
  induction hlineal with
  | self hname => exact Lineal.self (ht.isResolved_of_ne hne hname)
  | @up name parent above hname hparent _ ih =>
    have hname := ht.isResolved_of_ne hne hname
    refine Lineal.up hname hparent (ih ?_)
    rintro rfl
    exact parentName?_ne_of_ready hs hc hname hparent

/-- The new class is linked to the declaring classes of the prototypes that it inherits, and to no
other declaring class. -/
theorem lineal_of_laid_self_iff (hs : Coherent h store s) (hc : Ready h store s c)
    (ht : Laid s c observed slots t) (hcyclic : h.isCyclic c.name = false) {k : Nat}
    {p : Prototype} (hp : s.table.prototypes[k]? = some p) :
    Lineal h t c.name p.declaringClass ↔
      p.id ∈ (s.parentVtable c).map VtableSlot.id := by
  obtain ⟨upper, slot, hupper, hslot, hid⟩ := hs.exists_declaring_slot hp
  constructor
  · intro hlineal
    generalize p.declaringClass = declaring at hlineal hupper
    cases hlineal with
    | self =>
      rw [hc.vtable?_eq_none] at hupper
      cases hupper
    | up _ hparent habove =>
      have hne := ne_of_parentName? hcyclic hparent
      have habove := (lineal_of_laid_iff hs hc ht hne).mp habove
      obtain ⟨above, hslots⟩ := State.isResolved_iff.mp habove.isResolved_left
      rw [hc.parentVtable_eq hparent hslots, ← hid]
      exact (habove.ids_prefix hs hslots hupper).subset
        (List.mem_map_of_mem (List.mem_of_getElem? hslot))
  · intro hmem
    obtain ⟨slot', hslot', hid'⟩ := List.mem_map.mp hmem
    obtain ⟨j, hj⟩ := List.getElem?_of_mem hslot'
    obtain ⟨parent, declaring, hparent, horigin, hlineal⟩ := backed_parentVtable hs hj
    rw [hid', hs.id_index_eq hp, PrototypeTable.originAt?, hp] at horigin
    obtain ⟨rfl, -⟩ := Prod.mk.inj (Prod.mk.inj (Option.some.inj horigin)).2
    exact Lineal.up ht.isResolved_self (hc.parentName?_eq.trans hparent)
      (hlineal.mono fun _ => ht.isResolved_mono)

end Linked

end Merge

end VtableMerge
