/-!
Diagnostics are the findings of a merge about single classes. They are part of its result and
never stop it.
-/
namespace VtableMerge

inductive DiagnosticCategory
  | integrity
  | conflict
  | hierarchy
deriving DecidableEq

inductive DiagnosticKind
  | slotCountShrink
  | cyclicAncestry
  | unresolvedAncestor
  | missingParent
  | nameMismatch
  | parameterCountMismatch
deriving DecidableEq

namespace DiagnosticCategory

def all : List DiagnosticCategory := [integrity, conflict, hierarchy]

def code : DiagnosticCategory → String
  | integrity => "integrity"
  | conflict => "conflict"
  | hierarchy => "hierarchy"

end DiagnosticCategory

namespace DiagnosticKind

def all : List DiagnosticKind :=
  [slotCountShrink, cyclicAncestry, unresolvedAncestor, missingParent, nameMismatch,
    parameterCountMismatch]

def code : DiagnosticKind → String
  | slotCountShrink => "slot_count_shrink"
  | cyclicAncestry => "cyclic_ancestry"
  | unresolvedAncestor => "unresolved_ancestor"
  | missingParent => "missing_parent"
  | nameMismatch => "name_mismatch"
  | parameterCountMismatch => "parameter_count_mismatch"

def category : DiagnosticKind → DiagnosticCategory
  | slotCountShrink | cyclicAncestry | unresolvedAncestor => .integrity
  | nameMismatch | parameterCountMismatch => .conflict
  | missingParent => .hierarchy

end DiagnosticKind

structure Diagnostic where
  className : String
  slotIndex : Option Nat
  kind : DiagnosticKind
  category : DiagnosticCategory
  detail : String
deriving DecidableEq

namespace Diagnostic

def ofClass (className : String) (kind : DiagnosticKind) (detail : String) : Diagnostic :=
  ⟨className, none, kind, kind.category, detail⟩

def atSlot (d : Diagnostic) (slotIndex : Nat) : Diagnostic :=
  { d with slotIndex := some slotIndex }

end Diagnostic

/-- Diagnostics in the order in which they were found. -/
abbrev Diagnostics := List Diagnostic

namespace Diagnostics

def countOf (ds : Diagnostics) (kind : DiagnosticKind) : Nat :=
  ds.countP fun d => d.kind == kind

def forClass (ds : Diagnostics) (className : String) : Diagnostics :=
  ds.filter fun d => d.className == className

end Diagnostics

end VtableMerge
