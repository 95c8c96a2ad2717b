import VtableMerge.Hierarchy
import VtableMerge.Observation.Store
import VtableMerge.Prototype.Enrich

/-!
The state of a merge: the shared table of prototypes, what became of each settled class, and
the findings so far. Settling a class looks at the outcome of its parent, enriches the
prototypes of the slots it inherits and declares a prototype for each further slot.
-/
namespace VtableMerge.Merge

inductive Outcome
  | resolved (slots : List VtableSlot)
  | unobserved
  | failed
deriving DecidableEq

structure State where
  table : PrototypeTable
  /-- The settled classes, the latest first. -/
  outcomes : List (String × Outcome)
  diagnostics : Diagnostics

namespace State

def initial : State := ⟨PrototypeTable.empty, [], []⟩

def outcome? (s : State) (name : String) : Option Outcome := s.outcomes.lookup name

/-- Settles a class and adds what was found about it. -/
def settleAs (s : State) (name : String) (outcome : Outcome) (findings : Diagnostics) : State :=
  { s with outcomes := (name, outcome) :: s.outcomes, diagnostics := s.diagnostics ++ findings }

end State

/-- What the parent of a class leaves to it. -/
inductive Inheritance
  /-- No slots: the class has no parent, or one that was never observed. -/
  | none
  /-- No slots: the parent is not in the hierarchy. -/
  | missing (parent : String)
  /-- Nothing can be inherited: the parent failed. -/
  | failed (parent : String)
  /-- The prototypes of the slots of a resolved parent. -/
  | slots (parent : String) (ids : List ProtoId)

def inheritance (h : Hierarchy) (s : State) (c : ClassNode) : Inheritance :=
  match c.parent with
  | none => .none
  | some parent =>
    if h.contains parent then
      match s.outcome? parent with
      | some (.resolved slots) => .slots parent (slots.map VtableSlot.id)
      | some .failed => .failed parent
      | some .unobserved | none => .none
    else .missing parent

def cyclicAncestry (className : String) : Diagnostic :=
  .ofClass className .cyclicAncestry (className ++ " is its own ancestor")

def missingParent (className parent : String) : Diagnostic :=
  .ofClass className .missingParent
    ("parent " ++ parent ++ " is not in the hierarchy; resolving as a root")

def unresolvedAncestor (className parent : String) : Diagnostic :=
  .ofClass className .unresolvedAncestor ("parent " ++ parent ++ " failed to resolve")

def slotCountShrink (className parent : String) (inherited observed : Nat) : Diagnostic :=
  .ofClass className .slotCountShrink
    ("expected at least " ++ toString inherited ++ " slots inherited from " ++ parent
      ++ ", observed " ++ toString observed)

/-- Slots laid so far, the table they point into and the conflicts found on the way. -/
structure Layout where
  slots : List VtableSlot
  table : PrototypeTable
  conflicts : Diagnostics

/-- Enriches an inherited prototype. A number without a prototype changes nothing. -/
def enrichInherited (className : String) (slotIndex : Nat) (id : ProtoId) (o : Observation)
    (table : PrototypeTable) : PrototypeTable × Diagnostics :=
  match table.get? id with
  | none => (table, [])
  | some p =>
    let enriched := p.enrich o className slotIndex
    (table.set id enriched.prototype, enriched.conflicts)

/-- Lays the slots of a class from a position on: inherited ones while there are any, then new
ones. -/
def layFrom (className : String) (slotIndex : Nat) (table : PrototypeTable) :
    List ProtoId → List Observation → Layout
  | _, [] => ⟨[], table, []⟩
  | id :: ids, o :: os =>
    let (enriched, conflicts) := enrichInherited className slotIndex id o table
    let rest := layFrom className (slotIndex + 1) enriched ids os
    ⟨.ofObservation id o :: rest.slots, rest.table, conflicts ++ rest.conflicts⟩
  | [], o :: os =>
    let (extended, id) := table.create className slotIndex o.signature
    let rest := layFrom className (slotIndex + 1) extended [] os
    ⟨.ofObservation id o :: rest.slots, rest.table, rest.conflicts⟩

/-- Resolves a class whose observations cover the slots that it inherits. -/
def layClass (s : State) (className : String) (ids : List ProtoId) (observed : List Observation)
    (findings : Diagnostics) : State :=
  let layout := layFrom className 0 s.table ids observed
  { s.settleAs className (.resolved layout.slots) (findings ++ layout.conflicts) with
    table := layout.table }

/-- Settles an observed class that is not its own ancestor, after its parent. -/
def settleObserved (h : Hierarchy) (s : State) (c : ClassNode) (observed : List Observation) :
    State :=
  match inheritance h s c with
  | .none => layClass s c.name [] observed []
  | .missing parent => layClass s c.name [] observed [missingParent c.name parent]
  | .failed parent => s.settleAs c.name .failed [unresolvedAncestor c.name parent]
  | .slots parent ids =>
    if observed.length < ids.length then
      s.settleAs c.name .failed [slotCountShrink c.name parent ids.length observed.length]
    else layClass s c.name ids observed []

/-- Settles a class, after its parent where the parent matters. -/
def settle (h : Hierarchy) (store : ObservationStore) (s : State) (c : ClassNode) : State :=
  match store.get? c.name with
  | none => s.settleAs c.name .unobserved []
  | some observed =>
    if h.isCyclic c.name then s.settleAs c.name .failed [cyclicAncestry c.name]
    else settleObserved h s c observed

end VtableMerge.Merge
