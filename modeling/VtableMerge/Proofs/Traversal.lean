import Mathlib.Data.List.Nodup
import Mathlib.Logic.Function.Iterate
import VtableMerge.Proofs.Settling

/-!
Resolving on demand, step by step. A class on which work begins is pending until it is settled.
If its parent has to be settled first, the parent is asked for and the class waits. No step looks
at what is pending or counts how deep it is. Still no class is pending twice: a class that waits
is not cyclic, so it is not asked for above itself. Hence the traversal comes to an end, and there
it has settled what `resolve` settles.
-/
namespace VtableMerge.Merge

/-- The parent for which a class waits. An unobserved or cyclic class waits for none, and neither
does one whose parent is not in the hierarchy. -/
def awaited? (h : Hierarchy) (store : ObservationStore) (c : ClassNode) : Option String :=
  if needsParent h store c.name then c.parent.filter h.contains else none

theorem awaited?_eq_some_iff {h : Hierarchy} {store : ObservationStore} {c : ClassNode}
    {parent : String} : awaited? h store c = some parent ↔ needsParent h store c.name = true ∧
      c.parent = some parent ∧ h.contains parent = true := by
  unfold awaited?
  split
  · next hneeds => simp [hneeds, Option.filter_eq_some_iff]
  · next hneeds => simp [hneeds]

inductive Phase
  /-- To look for a class of a name. -/
  | call (name : String)
  /-- To begin the work on the innermost pending class. -/
  | work
  /-- To go on where the last name was asked for. -/
  | back

structure Traversal where
  phase : Phase
  /-- The classes on which work began and did not end, the innermost first. -/
  pending : List ClassNode
  /-- The names to ask for when nothing is pending. -/
  calls : List String
  state : State
  /-- The classes on which work ever began, the latest first. -/
  begun : List String

namespace Traversal

def initial (names : List String) : Traversal := ⟨.back, [], names, State.initial, []⟩

def Ended (t : Traversal) : Prop := t.phase = .back ∧ t.pending = [] ∧ t.calls = []

section Steps
variable (h : Hierarchy) (store : ObservationStore)

def step (t : Traversal) : Traversal :=
  match t.phase, t.pending with
  | .call name, _ =>
    if (t.state.outcome? name).isSome then { t with phase := .back }
    else
      match h.get? name with
      | none => { t with phase := .back }
      | some c => { t with phase := .work, pending := c :: t.pending, begun := c.name :: t.begun }
  | .work, c :: rest =>
    match awaited? h store c with
    | some parent => { t with phase := .call parent }
    | none => { t with phase := .back, pending := rest, state := settle h store t.state c }
  | .back, c :: rest => { t with pending := rest, state := settle h store t.state c }
  | .back, [] =>
    match t.calls with
    | [] => t
    | name :: calls => { t with phase := .call name, calls }
  | .work, [] => t

def Reaches (t u : Traversal) : Prop := ∃ n, (step h store)^[n] t = u

end Steps

variable {h : Hierarchy} {store : ObservationStore} {t u v : Traversal}

theorem Reaches.refl (t : Traversal) : Reaches h store t t := ⟨0, rfl⟩

theorem Reaches.trans (htu : Reaches h store t u) (huv : Reaches h store u v) :
    Reaches h store t v := by
  obtain ⟨m, rfl⟩ := htu
  obtain ⟨n, rfl⟩ := huv
  exact ⟨n + m, Function.iterate_add_apply _ _ _ _⟩

theorem reaches_step (t : Traversal) : Reaches h store t (step h store t) := ⟨1, rfl⟩

section Ending
variable {pending : List ClassNode} {calls begun : List String} {s : State} {name : String}
  {c : ClassNode}

theorem reaches_back (hback : (s.outcome? name).isSome = true ∨ h.get? name = none) :
    Reaches h store ⟨.call name, pending, calls, s, begun⟩ ⟨.back, pending, calls, s, begun⟩ := by
  refine ⟨1, ?_⟩
  simp only [Function.iterate_one, step]
  rcases hback with hsettled | hnone
  · rw [if_pos hsettled]
  · rw [hnone, ite_self]

theorem reaches_work (hfresh : s.outcome? name = none) (hc : h.get? name = some c) :
    Reaches h store ⟨.call name, pending, calls, s, begun⟩
      ⟨.work, c :: pending, calls, s, c.name :: begun⟩ := by
  refine ⟨1, ?_⟩
  simp only [Function.iterate_one, step, hfresh, hc]
  rfl

theorem reaches_settle (hawaited : awaited? h store c = none) :
    Reaches h store ⟨.work, c :: pending, calls, s, begun⟩
      ⟨.back, pending, calls, settle h store s c, begun⟩ := by
  refine ⟨1, ?_⟩
  simp only [Function.iterate_one, step, hawaited]

theorem reaches_call {parent : String} (hawaited : awaited? h store c = some parent) :
    Reaches h store ⟨.work, c :: pending, calls, s, begun⟩
      ⟨.call parent, c :: pending, calls, s, begun⟩ := by
  refine ⟨1, ?_⟩
  simp only [Function.iterate_one, step, hawaited]

/-- Below a parent that is asked for, the class is settled last. -/
theorem unsettled_of_awaited {parent : String} {steps : Nat} (hfresh : s.outcome? name = none)
    (hc : h.get? name = some c) (hawaited : awaited? h store c = some parent) :
    unsettled h store s (steps + 1) name = c :: unsettled h store s steps parent := by
  obtain ⟨hneeds, hparent, -⟩ := awaited?_eq_some_iff.mp hawaited
  obtain rfl := h.name_of_get? hc
  rw [unsettled, hfresh, hc]
  simp only [hneeds, hparent]
  rfl

theorem unsettled_of_not_awaited {steps : Nat} (hfresh : s.outcome? name = none)
    (hc : h.get? name = some c) (hawaited : awaited? h store c = none) :
    unsettled h store s (steps + 1) name = [c] := by
  obtain rfl := h.name_of_get? hc
  rw [unsettled, hfresh, hc]
  unfold awaited? at hawaited
  split at hawaited
  · next hneeds =>
    simp only [hneeds]
    cases hparent : c.parent with
    | none => rfl
    | some parent =>
      have hnone : h.get? parent = none := by
        simpa [hparent, Hierarchy.contains] using hawaited
      simp only [unsettled_eq_nil (Or.inr hnone)]
      rfl
  · next hneeds =>
    simp only [hneeds]
    rfl

/-- A name that is asked for is settled, with what it needs, and nothing else happens. The
induction is on the length of the walk upward, of which the traversal knows nothing. -/
theorem reaches_unsettled {steps : Nat} (hground : Grounded h store steps name) :
    ∃ begun', Reaches h store ⟨.call name, pending, calls, s, begun⟩
      ⟨.back, pending, calls,
        (unsettled h store s steps name).reverse.foldl (settle h store) s, begun'⟩ := by
  induction steps generalizing name pending begun with
  | zero =>
    have hnone : h.get? name = none := by
      simpa [Grounded, Hierarchy.contains] using hground
    exact ⟨begun, reaches_back (Or.inr hnone)⟩
  | succ steps ih =>
    cases hfresh : s.outcome? name with
    | some o =>
      have hsettled : (s.outcome? name).isSome = true := by rw [hfresh]; rfl
      rw [unsettled_eq_nil (Or.inl hsettled)]
      exact ⟨begun, reaches_back (Or.inl hsettled)⟩
    | none =>
      cases hc : h.get? name with
      | none =>
        rw [unsettled_eq_nil (Or.inr hc)]
        exact ⟨begun, reaches_back (Or.inr hc)⟩
      | some c =>
        have hwork := @reaches_work h store pending calls begun s name c hfresh hc
        cases hawaited : awaited? h store c with
        | none =>
          rw [unsettled_of_not_awaited hfresh hc hawaited]
          exact ⟨_, hwork.trans (reaches_settle hawaited)⟩
        | some parent =>
          obtain ⟨hneeds, hparent, -⟩ := awaited?_eq_some_iff.mp hawaited
          rw [h.name_of_get? hc] at hneeds
          obtain ⟨begun', habove⟩ := @ih (c :: pending) (c.name :: begun) parent
            (hground hneeds parent ((h.parentName?_of_get? hc).trans hparent))
          rw [unsettled_of_awaited hfresh hc hawaited, List.reverse_cons, List.foldl_append]
          exact ⟨begun', ((hwork.trans (reaches_call hawaited)).trans habove).trans
            (reaches_step _)⟩

theorem reaches_foldl_resolve (names : List String) (s : State) (begun : List String) :
    ∃ begun', Reaches h store ⟨.back, [], names, s, begun⟩
      ⟨.back, [], [], names.foldl (resolve h store) s, begun'⟩ := by
  induction names generalizing s begun with
  | nil => exact ⟨begun, Reaches.refl _⟩
  | cons name names ih =>
    obtain ⟨begun₁, hname⟩ := @reaches_unsettled h store [] names begun s name h.size
      (grounded_size name)
    obtain ⟨begun₂, hnames⟩ := ih (resolve h store s name) begun₁
    exact ⟨begun₂, ((reaches_step _).trans hname).trans hnames⟩

end Ending

section Order

/-- Each pending class waits for the one inside it, and the innermost for a name. -/
def Awaits (h : Hierarchy) (store : ObservationStore) : String → List ClassNode → Prop
  | _, [] => True
  | name, c :: rest => awaited? h store c = some name ∧ Awaits h store c.name rest

def Waiting (h : Hierarchy) (store : ObservationStore) (t : Traversal) : Prop :=
  match t.phase, t.pending with
  | .call name, pending => Awaits h store name pending
  | .work, c :: rest => Awaits h store c.name rest
  | .work, [] => False
  | .back, pending => ∃ name, Awaits h store name pending

structure Orderly (h : Hierarchy) (store : ObservationStore) (t : Traversal) : Prop where
  known : ∀ c ∈ t.pending, h.get? c.name = some c
  fresh : ∀ c ∈ t.pending, t.state.outcome? c.name = none
  waiting : Waiting h store t
  distinct : (t.pending.map ClassNode.name).Nodup
  begun_once : t.begun.Nodup
  begun_inside : ∀ name ∈ t.begun, h.contains name = true
  accounted : ∀ name ∈ t.begun,
    (t.state.outcome? name).isSome = true ∨ name ∈ t.pending.map ClassNode.name

theorem orderly_initial (names : List String) : Orderly h store (initial names) := by
  constructor <;> simp [initial, Waiting, Awaits]

/-- What waits for a name has it above itself and is not cyclic. -/
theorem climb_of_awaits {name : String} {pending : List ClassNode}
    (hknown : ∀ c ∈ pending, h.get? c.name = some c) (hawaits : Awaits h store name pending)
    {c : ClassNode} (hc : c ∈ pending) :
    needsParent h store c.name = true ∧ ∃ n, h.climb (n + 1) c.name = some name := by
  induction pending generalizing name with
  | nil => cases hc
  | cons first rest ih =>
    obtain ⟨hawaited, hrest⟩ := hawaits
    obtain ⟨hneeds, hparent, -⟩ := awaited?_eq_some_iff.mp hawaited
    have hlink : h.parentName? first.name = some name :=
      (h.parentName?_of_get? (hknown first List.mem_cons_self)).trans hparent
    rcases List.mem_cons.mp hc with rfl | hc
    · exact ⟨hneeds, 0, (h.climb_one _).trans hlink⟩
    · obtain ⟨hbelow, n, hclimb⟩ :=
        ih (fun d hd => hknown d (List.mem_cons_of_mem _ hd)) hrest hc
      refine ⟨hbelow, n + 1, ?_⟩
      rw [h.climb_succ_last, hclimb, Option.bind_some, hlink]

/-- A class that is asked for is not pending. -/
theorem not_mem_of_awaits {name : String} {pending : List ClassNode}
    (hknown : ∀ c ∈ pending, h.get? c.name = some c) (hawaits : Awaits h store name pending) :
    name ∉ pending.map ClassNode.name := by
  intro hmem
  obtain ⟨c, hc, rfl⟩ := List.mem_map.mp hmem
  obtain ⟨hneeds, n, hclimb⟩ := climb_of_awaits hknown hawaits hc
  have hcyclic := h.isCyclic_iff_climb.mpr ⟨n + 1, Nat.succ_pos n, hclimb⟩
  rw [not_isCyclic_of_needsParent hneeds] at hcyclic
  cases hcyclic

section Step
variable {pending rest : List ClassNode} {calls begun : List String} {s : State} {name : String}
  {c : ClassNode}

/-- Work begins on a class that is neither pending nor settled, so it never began before. -/
theorem orderly_work (ht : Orderly h store ⟨.call name, pending, calls, s, begun⟩)
    (hfresh : s.outcome? name = none) (hc : h.get? name = some c) :
    Orderly h store ⟨.work, c :: pending, calls, s, c.name :: begun⟩ := by
  obtain rfl := h.name_of_get? hc
  have hnew : c.name ∉ pending.map ClassNode.name := not_mem_of_awaits ht.known ht.waiting
  refine {
    known := List.forall_mem_cons.mpr ⟨hc, ht.known⟩
    fresh := List.forall_mem_cons.mpr ⟨hfresh, ht.fresh⟩
    waiting := ht.waiting
    distinct := List.nodup_cons.mpr ⟨hnew, ht.distinct⟩
    begun_once := List.nodup_cons.mpr ⟨fun hmem => ?_, ht.begun_once⟩
    begun_inside := List.forall_mem_cons.mpr
      ⟨h.contains_iff_exists.mpr ⟨c, hc⟩, ht.begun_inside⟩
    accounted := fun other hother => ?_ }
  · rcases ht.accounted c.name hmem with hsettled | hpending
    · rw [show (⟨.call c.name, pending, calls, s, begun⟩ : Traversal).state.outcome? c.name = none
        from hfresh] at hsettled
      cases hsettled
    · exact hnew hpending
  · rcases List.mem_cons.mp hother with rfl | hother
    · exact Or.inr List.mem_cons_self
    · exact (ht.accounted other hother).imp_right (List.mem_cons_of_mem _)

/-- Work ends on the innermost class, which is settled. -/
theorem orderly_settle {phase : Phase}
    (ht : Orderly h store ⟨phase, c :: rest, calls, s, begun⟩)
    (hawaits : Awaits h store c.name rest) :
    Orderly h store ⟨.back, rest, calls, settle h store s c, begun⟩ := by
  obtain ⟨hnot, hdistinct⟩ := List.nodup_cons.mp ht.distinct
  have hne : ∀ d ∈ rest, d.name ≠ c.name := fun d hd heq =>
    hnot (heq ▸ List.mem_map_of_mem hd)
  refine {
    known := fun d hd => ht.known d (List.mem_cons_of_mem _ hd)
    fresh := fun d hd => ?_
    waiting := ⟨c.name, hawaits⟩
    distinct := hdistinct
    begun_once := ht.begun_once
    begun_inside := ht.begun_inside
    accounted := fun other hother => ?_ }
  · exact (settle_outcome?_of_ne h store s c (hne d hd)).trans
      (ht.fresh d (List.mem_cons_of_mem _ hd))
  · by_cases heq : other = c.name
    · subst heq
      exact Or.inl (settle_outcome?_self h store s c)
    · rcases ht.accounted other hother with hsettled | hpending
      · exact Or.inl ((congrArg Option.isSome
          (settle_outcome?_of_ne h store s c heq)).trans hsettled)
      · exact Or.inr ((List.mem_cons.mp hpending).resolve_left heq)

/-- Nothing begins and nothing ends. -/
theorem orderly_of_phase {phase phase' : Phase} {calls' : List String}
    (ht : Orderly h store ⟨phase, pending, calls, s, begun⟩)
    (hwaiting : Waiting h store ⟨phase', pending, calls', s, begun⟩) :
    Orderly h store ⟨phase', pending, calls', s, begun⟩ :=
  { ht with waiting := hwaiting }

theorem orderly_step (ht : Orderly h store t) : Orderly h store (step h store t) := by
  obtain ⟨phase, pending, calls, s, begun⟩ := t
  have hwaiting := ht.waiting
  cases phase with
  | call name =>
    simp only [step]
    split
    · exact orderly_of_phase ht ⟨name, hwaiting⟩
    · next hfresh =>
      split
      · exact orderly_of_phase ht ⟨name, hwaiting⟩
      · next c hc => exact orderly_work ht (by simpa using hfresh) hc
  | work =>
    cases pending with
    | nil => exact hwaiting.elim
    | cons c rest =>
      simp only [step]
      split
      · next parent hawaited => exact orderly_of_phase ht ⟨hawaited, hwaiting⟩
      · exact orderly_settle ht hwaiting
  | back =>
    cases pending with
    | nil =>
      cases calls with
      | nil => exact ht
      | cons name calls => exact orderly_of_phase ht trivial
    | cons c rest =>
      obtain ⟨name, -, hawaits⟩ := hwaiting
      exact orderly_settle ht hawaits

end Step

theorem orderly_iterate (names : List String) (n : Nat) :
    Orderly h store ((step h store)^[n] (initial names)) := by
  induction n with
  | zero => exact orderly_initial names
  | succ n ih =>
    rw [Function.iterate_succ_apply']
    exact orderly_step ih

theorem Orderly.depth_le_size (ht : Orderly h store t) : t.pending.length ≤ h.size := by
  have hinside : ∀ name ∈ t.pending.map ClassNode.name, h.contains name = true := by
    intro name hname
    obtain ⟨c, hc, rfl⟩ := List.mem_map.mp hname
    exact h.contains_iff_exists.mpr ⟨c, ht.known c hc⟩
  simpa using h.length_le_size ht.distinct hinside

end Order

structure Nested (h : Hierarchy) (t : Traversal) : Prop where
  /-- Work never began on a class that was pending. -/
  distinct : (t.pending.map ClassNode.name).Nodup
  /-- No more classes are pending than there are. -/
  depth_le_size : t.pending.length ≤ h.size
  /-- Work began on classes of the hierarchy only, and on each at most once. -/
  begun_once : t.begun.Nodup
  begun_inside : ∀ name ∈ t.begun, h.contains name = true

theorem step_of_ended (ht : t.Ended) : step h store t = t := by
  obtain ⟨phase, pending, calls, s, begun⟩ := t
  obtain ⟨rfl, rfl, rfl⟩ := ht
  rfl

/-- Whatever the parent links and the observations are, and whatever names are asked for in
whatever order, the traversal comes to an end and stays there, and it has settled what resolving
the names settles. On the way no class is pending twice, no more classes are pending than there
are, and work begins at most once on each class, however often it is asked for. -/
theorem ended_and_nested_iterate (h : Hierarchy) (store : ObservationStore)
    (names : List String) :
    (∃ n last, Ended last ∧ last.state = resolveAll h store names ∧
      ∀ m, n ≤ m → (step h store)^[m] (initial names) = last) ∧
    ∀ n, Nested h ((step h store)^[n] (initial names)) := by
  constructor
  · obtain ⟨begun, n, hlast⟩ := @reaches_foldl_resolve h store names State.initial []
    have hended : Ended ⟨.back, [], [], resolveAll h store names, begun⟩ := ⟨rfl, rfl, rfl⟩
    refine ⟨n, _, hended, rfl, fun m hm => ?_⟩
    obtain ⟨k, rfl⟩ := Nat.exists_eq_add_of_le' hm
    rw [Function.iterate_add_apply, initial, hlast]
    exact Function.iterate_fixed (step_of_ended hended) k
  · intro n
    have ht := @orderly_iterate h store names n
    exact ⟨ht.distinct, ht.depth_le_size, ht.begun_once, ht.begun_inside⟩

end Traversal

end VtableMerge.Merge
