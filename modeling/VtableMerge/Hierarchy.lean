import VtableMerge.Vtable

/-!
The class forest. Parents are given by name only, so a parent may be missing and links may run
in circles. A class is cyclic when following parent links from it leads back to it; a class that
merely hangs below a circle is not.
-/
namespace VtableMerge

structure ClassNode where
  name : String
  parent : Option String
  isAbstract : Bool
  /-- The resolved vtable, once there is one. -/
  slots : Option (List VtableSlot)
deriving DecidableEq

namespace ClassNode

def root (name : String) : ClassNode := ⟨name, none, false, none⟩

def isResolved (c : ClassNode) : Bool := c.slots.isSome

end ClassNode

/-- The first name that stands in a list for a second time, in reading order. -/
def firstRepeated? (seen : List String) : List String → Option String
  | [] => none
  | name :: rest => if seen.contains name then some name else firstRepeated? (name :: seen) rest

theorem nodup_of_firstRepeated? {seen names : List String}
    (h : firstRepeated? seen names = none) :
    names.Nodup ∧ ∀ name ∈ names, name ∉ seen := by
  induction names generalizing seen with
  | nil => simp
  | cons name rest ih =>
    rw [firstRepeated?] at h
    split at h
    · cases h
    · next hseen =>
      have hrest := ih h
      simp only [List.contains_eq_mem, decide_eq_true_eq] at hseen
      refine ⟨List.nodup_cons.mpr ⟨fun hmem => hrest.2 name hmem (by simp), hrest.1⟩, ?_⟩
      intro other hother
      rcases List.mem_cons.mp hother with rfl | hother
      · exact hseen
      · exact fun hmem => hrest.2 other hother (List.mem_cons_of_mem _ hmem)

/-- No name before it repeats another one. -/
theorem exists_of_firstRepeated? {seen names : List String} {name : String}
    (hname : firstRepeated? seen names = some name) : ∃ before after,
      names = before ++ name :: after ∧ firstRepeated? seen before = none ∧
        (name ∈ before ∨ name ∈ seen) := by
  induction names generalizing seen with
  | nil => cases hname
  | cons first rest ih =>
    rw [firstRepeated?] at hname
    split at hname
    · next hseen =>
      obtain rfl := Option.some.inj hname
      exact ⟨[], rest, rfl, rfl, Or.inr (by simpa using hseen)⟩
    · next hseen =>
      obtain ⟨before, after, rfl, hnone, hagain⟩ := ih hname
      refine ⟨first :: before, after, rfl, ?_, ?_⟩
      · rw [firstRepeated?, if_neg hseen, hnone]
      · rw [List.mem_cons] at hagain
        rwa [List.mem_cons, or_assoc, or_left_comm]

/-- Classes in document order, no two of one name. -/
structure Hierarchy where
  nodes : List ClassNode
  distinct : (nodes.map ClassNode.name).Nodup

namespace Hierarchy

/-- The hierarchy of a list of classes, or the first name that occurs a second time. -/
def ofNodes (nodes : List ClassNode) : Except String Hierarchy :=
  match h : firstRepeated? [] (nodes.map ClassNode.name) with
  | some name => .error name
  | none => .ok ⟨nodes, (nodup_of_firstRepeated? h).1⟩

theorem ofNodes_of_nodup {nodes : List ClassNode} (hnodup : (nodes.map ClassNode.name).Nodup) :
    ofNodes nodes = .ok ⟨nodes, hnodup⟩ := by
  unfold ofNodes
  split
  · next name hname =>
    obtain ⟨before, after, hsplit, -, hagain⟩ := exists_of_firstRepeated? hname
    have hbefore : name ∈ before := hagain.resolve_right List.not_mem_nil
    rw [hsplit, List.nodup_append] at hnodup
    exact absurd rfl (hnodup.2.2 name hbefore name List.mem_cons_self)
  · rfl

/-- The name that is told is the first one that the names before it hold already. -/
theorem ofNodes_of_not_nodup {nodes : List ClassNode}
    (hrepeated : ¬ (nodes.map ClassNode.name).Nodup) : ∃ before name after,
      nodes.map ClassNode.name = before ++ name :: after ∧ before.Nodup ∧ name ∈ before ∧
        ofNodes nodes = .error name := by
  unfold ofNodes
  split
  · next name hname =>
    obtain ⟨before, after, hsplit, hnone, hagain⟩ := exists_of_firstRepeated? hname
    exact ⟨before, name, after, hsplit, (nodup_of_firstRepeated? hnone).1,
      hagain.resolve_right List.not_mem_nil, rfl⟩
  · next hnone => exact absurd (nodup_of_firstRepeated? hnone).1 hrepeated

def size (h : Hierarchy) : Nat := h.nodes.length

def isEmpty (h : Hierarchy) : Bool := h.nodes.isEmpty

def get? (h : Hierarchy) (name : String) : Option ClassNode :=
  h.nodes.find? fun c => c.name == name

def contains (h : Hierarchy) (name : String) : Bool := (h.get? name).isSome

/-- The name of the parent, which need not be a class of the hierarchy. -/
def parentName? (h : Hierarchy) (name : String) : Option String :=
  (h.get? name).bind ClassNode.parent

def parentOf? (h : Hierarchy) (name : String) : Option ClassNode :=
  (h.parentName? name).bind h.get?

/-- Whether a walk along parent links comes to a sought name, if it ends within a number of turns.
It ends at that name, at a name that it met before, and where no name follows. -/
def comesTo? (h : Hierarchy) (sought : String) : Nat → List String → Option String → Option Bool
  | _, _, none => some false
  | 0, _, some _ => none
  | turns + 1, met, some name =>
    if name == sought then some true
    else if met.contains name then some false
    else h.comesTo? sought turns (name :: met) (h.parentName? name)

/-- Whether a class is its own ancestor. Every turn but the last meets one more of the other
classes, so the walk never needs more turns than there are classes. -/
def isCyclic (h : Hierarchy) (name : String) : Bool :=
  h.comesTo? name h.size [] (h.parentName? name) == some true

end Hierarchy

end VtableMerge
