import VtableMerge.Merge
import VtableMerge.Proofs.Ancestry

/-!
A merge finds classes by name and follows their links. It reads no vtable that a class brings
along, and the order of the classes decides only in which order they are visited. So hierarchies
that find the same links under each name lead through the same states.
-/
namespace VtableMerge

def ClassNode.bare (c : ClassNode) : ClassNode := { c with slots := none }

theorem ClassNode.name_eq_of_bare_eq {c d : ClassNode} (hbare : c.bare = d.bare) :
    c.name = d.name := (ClassNode.mk.inj hbare).1

theorem ClassNode.parent_eq_of_bare_eq {c d : ClassNode} (hbare : c.bare = d.bare) :
    c.parent = d.parent := (ClassNode.mk.inj hbare).2.1

theorem ClassNode.map_name_of_bare_eq {f : ClassNode → ClassNode} (hf : ∀ c, (f c).bare = c.bare)
    (nodes : List ClassNode) :
    (nodes.map f).map ClassNode.name = nodes.map ClassNode.name := by
  rw [List.map_map]
  exact List.map_congr_left fun c _ => ClassNode.name_eq_of_bare_eq (hf c)

/-- Two hierarchies of one size that find the same class under each name, its vtable aside. -/
structure Hierarchy.SameLinks (h h' : Hierarchy) : Prop where
  size_eq : h'.size = h.size
  bare_eq : ∀ name, (h'.get? name).map ClassNode.bare = (h.get? name).map ClassNode.bare

namespace Hierarchy

variable {h h' : Hierarchy}

theorem get?_eq_of_perm (hperm : h'.nodes.Perm h.nodes) (name : String) :
    h'.get? name = h.get? name := find?_key_eq_of_perm ClassNode.name h.distinct hperm name

theorem sameLinks_of_perm (hperm : h'.nodes.Perm h.nodes) : SameLinks h h' where
  size_eq := hperm.length_eq
  bare_eq name := by rw [get?_eq_of_perm hperm]

/-- A look-up goes by the name, so it finds the changed class where it found the old one. -/
theorem get?_of_map {f : ClassNode → ClassNode} (hname : ∀ c, (f c).name = c.name)
    (hnodes : h'.nodes = h.nodes.map f) (name : String) :
    h'.get? name = (h.get? name).map f := by
  rw [get?, get?, hnodes, List.find?_map]
  simp only [Function.comp_def, hname]

theorem sameLinks_of_map {f : ClassNode → ClassNode} (hf : ∀ c, (f c).bare = c.bare)
    (hnodes : h'.nodes = h.nodes.map f) : SameLinks h h' where
  size_eq := by rw [size, size, hnodes, List.length_map]
  bare_eq name := by
    have hname : ∀ c, (f c).name = c.name := fun c => ClassNode.name_eq_of_bare_eq (hf c)
    rw [get?_of_map hname hnodes, Option.map_map]
    exact congrArg (Option.map · (h.get? name)) (funext hf)

namespace SameLinks

variable (hsame : SameLinks h h')
include hsame

theorem contains_eq (name : String) : h'.contains name = h.contains name := by
  simpa only [contains, Option.isSome_map] using congrArg Option.isSome (hsame.bare_eq name)

theorem parentName?_eq (name : String) : h'.parentName? name = h.parentName? name := by
  simpa only [parentName?, Option.bind_map, Function.comp_def, ClassNode.bare] using
    congrArg (·.bind ClassNode.parent) (hsame.bare_eq name)

theorem comesTo?_eq (sought : String) (turns : Nat) (met : List String) (next : Option String) :
    h'.comesTo? sought turns met next = h.comesTo? sought turns met next := by
  induction turns generalizing met next with
  | zero => cases next <;> rfl
  | succ turns ih =>
    cases next with
    | none => rfl
    | some name => simp only [comesTo?, hsame.parentName?_eq, ih]

theorem isCyclic_eq (name : String) : h'.isCyclic name = h.isCyclic name := by
  rw [isCyclic, isCyclic, hsame.size_eq, hsame.parentName?_eq, hsame.comesTo?_eq]

end SameLinks

end Hierarchy

namespace Merge

variable {h h' : Hierarchy} {store : ObservationStore}

/-- Settling reads the name and the parent of a class only. -/
theorem foldl_settle_bare (h : Hierarchy) (store : ObservationStore) (s : State)
    (cs : List ClassNode) :
    (cs.map ClassNode.bare).foldl (settle h store) s = cs.foldl (settle h store) s := by
  rw [List.foldl_map]
  rfl

theorem needsParent_eq_of_sameLinks (hsame : h.SameLinks h') (name : String) :
    needsParent h' store name = needsParent h store name := by
  rw [needsParent, needsParent, hsame.isCyclic_eq]

theorem unsettled_bare_eq_of_sameLinks (hsame : h.SameLinks h') (s : State) (steps : Nat)
    (name : String) : (unsettled h' store s steps name).map ClassNode.bare =
      (unsettled h store s steps name).map ClassNode.bare := by
  induction steps generalizing name with
  | zero => rfl
  | succ steps ih =>
    have hbare := hsame.bare_eq name
    rw [unsettled, unsettled, needsParent_eq_of_sameLinks hsame]
    by_cases hdone : (s.outcome? name).isSome = true
    · rw [if_pos hdone, if_pos hdone]
    · rw [if_neg hdone, if_neg hdone]
      cases hc : h.get? name with
      | none =>
        rw [hc] at hbare
        rw [Option.map_eq_none_iff.mp hbare]
      | some c =>
        rw [hc] at hbare
        obtain ⟨c', hc', hsame'⟩ := Option.map_eq_some_iff.mp hbare
        have hparent : c'.parent = c.parent := ClassNode.parent_eq_of_bare_eq hsame'
        rw [hc']
        simp only [hparent]
        split
        · split
          · simp [hsame']
          · simp [hsame', ih]
        · simp [hsame']

theorem settle_eq_of_sameLinks (hsame : h.SameLinks h') : settle h' store = settle h store := by
  funext s c
  simp only [settle, settleObserved, inheritance, hsame.isCyclic_eq, hsame.contains_eq]

/-- Only the names and the links count. -/
theorem resolveAll_eq_of_sameLinks (hsame : h.SameLinks h') (names : List String) :
    resolveAll h' store names = resolveAll h store names := by
  have hresolve : resolve h' store = resolve h store := by
    funext s name
    rw [resolve, resolve, hsame.size_eq, settle_eq_of_sameLinks hsame, ← foldl_settle_bare,
      ← foldl_settle_bare h store s (unsettled h store s h.size name).reverse, List.map_reverse,
      List.map_reverse, unsettled_bare_eq_of_sameLinks hsame]
  rw [resolveAll, resolveAll, hresolve]

end Merge

end VtableMerge
