import VtableMerge.Merge.State

/-!
Merging the observations of all classes over a hierarchy. Classes are settled on demand, each
once: before a class, the settled part of its ancestry is completed from the top down. An
unobserved or cyclic class needs nothing from above, so the walk upward ends there.
-/
namespace VtableMerge.Merge

/-- Whether a class is settled by looking at its parent. -/
def needsParent (h : Hierarchy) (store : ObservationStore) (name : String) : Bool :=
  store.contains name && !h.isCyclic name

/-- The classes that have to be settled for a class, itself first. No class needs itself from
above, so as many steps as there are classes reach the end. -/
def unsettled (h : Hierarchy) (store : ObservationStore) (s : State) :
    Nat → String → List ClassNode
  | 0, _ => []
  | steps + 1, name =>
    if (s.outcome? name).isSome then []
    else
      match h.get? name with
      | none => []
      | some c =>
        if needsParent h store name then
          match c.parent with
          | none => [c]
          | some parent => c :: unsettled h store s steps parent
        else [c]

/-- Settles a class of the hierarchy and what it needs, unless it is settled already. -/
def resolve (h : Hierarchy) (store : ObservationStore) (s : State) (name : String) : State :=
  (unsettled h store s h.size name).reverse.foldl (settle h store) s

/-- Counts over a finished merge. A class that was never settled counts as unobserved. -/
structure Stats where
  classes : Nat
  resolved : Nat
  unobserved : Nat
  failed : Nat
  prototypes : Nat
deriving DecidableEq

structure Result where
  classes : List ClassNode
  prototypes : PrototypeTable
  diagnostics : Diagnostics
  stats : Stats

/-- A class with its vtable, if it was resolved. -/
def withVtable (s : State) (c : ClassNode) : ClassNode :=
  match s.outcome? c.name with
  | some (.resolved slots) => { c with slots := some slots }
  | _ => c

@[simp] theorem withVtable_name (s : State) (c : ClassNode) :
    (withVtable s c).name = c.name := by
  unfold withVtable
  split <;> rfl

@[simp] theorem withVtable_parent (s : State) (c : ClassNode) :
    (withVtable s c).parent = c.parent := by
  unfold withVtable
  split <;> rfl

def isResolvedIn (s : State) (c : ClassNode) : Bool :=
  match s.outcome? c.name with
  | some (.resolved _) => true
  | _ => false

def isFailedIn (s : State) (c : ClassNode) : Bool := s.outcome? c.name == some .failed

def finish (h : Hierarchy) (s : State) : Result :=
  { classes := h.nodes.map (withVtable s)
    prototypes := s.table
    diagnostics := s.diagnostics
    stats :=
      { classes := h.size
        resolved := h.nodes.countP (isResolvedIn s)
        unobserved := h.nodes.countP fun c => !isResolvedIn s c && !isFailedIn s c
        failed := h.nodes.countP (isFailedIn s)
        prototypes := s.table.size } }

/-- The state after resolving names in order. -/
def resolveAll (h : Hierarchy) (store : ObservationStore) (names : List String) : State :=
  names.foldl (resolve h store) State.initial

/-- Resolves every class in document order. -/
def run (h : Hierarchy) (store : ObservationStore) : Result :=
  finish h (resolveAll h store (h.nodes.map ClassNode.name))

end VtableMerge.Merge
