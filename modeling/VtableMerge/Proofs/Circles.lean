import Mathlib.Logic.Relation
import VtableMerge.Proofs.Ancestry

/-!
Circles of parent links. A class is on a circle when one or more links lead from it back to it.
A class has one parent only, so whatever lies above a class on a circle is on the same circle. A
walk that starts below a circle runs into it and never sees its start again: it ends where it
meets a class a second time, and the class below is not called cyclic.
-/
namespace VtableMerge.Hierarchy

open Relation

/-- A class of one name tells the other one as its parent, which need not be a class. -/
def NamesParent (h : Hierarchy) (name parent : String) : Prop :=
  ∃ c ∈ h.nodes, c.name = name ∧ c.parent = some parent

/-- Nothing can be above a name: it is a root, or no class at all. -/
def EndsAncestry (h : Hierarchy) (name : String) : Prop :=
  (∃ c ∈ h.nodes, c.name = name ∧ c.parent = none) ∨ ∀ c ∈ h.nodes, c.name ≠ name

variable {h : Hierarchy} {name parent above : String}

theorem namesParent_iff : h.NamesParent name parent ↔ h.parentName? name = some parent := by
  constructor
  · rintro ⟨c, hc, rfl, hparent⟩
    exact (h.parentName?_of_get? (h.get?_of_mem hc)).trans hparent
  · intro hlink
    obtain ⟨c, hc, hparent⟩ := Option.bind_eq_some_iff.mp hlink
    exact ⟨c, h.mem_of_get? hc, h.name_of_get? hc, hparent⟩

theorem NamesParent.unique {other : String} (hparent : h.NamesParent name parent)
    (hother : h.NamesParent name other) : parent = other := by
  rw [namesParent_iff] at hparent hother
  exact Option.some.inj (hparent.symm.trans hother)

theorem EndsAncestry.not_namesParent (hends : h.EndsAncestry name) :
    ¬ h.NamesParent name parent := by
  rintro ⟨c, hc, hname, hparent⟩
  rcases hends with ⟨root, hroot, hrootName, hnone⟩ | hmissing
  · have hsame : root = c :=
      List.inj_on_of_nodup_map h.distinct hroot hc (hrootName.trans hname.symm)
    rw [hsame, hparent] at hnone
    cases hnone
  · exact hmissing c hc hname

/-- A number of links lead up to a name just when climbing as many steps does. -/
theorem transGen_namesParent_iff :
    TransGen h.NamesParent name above ↔ ∃ n, 0 < n ∧ h.climb n name = some above := by
  constructor
  · intro habove
    induction habove with
    | single hlink =>
      exact ⟨1, Nat.one_pos, (h.climb_one name).trans (namesParent_iff.mp hlink)⟩
    | tail _ hlink ih =>
      obtain ⟨n, -, hclimb⟩ := ih
      refine ⟨n + 1, Nat.succ_pos n, ?_⟩
      rw [h.climb_succ_last, hclimb, Option.bind_some]
      exact namesParent_iff.mp hlink
  · rintro ⟨n, hpos, hclimb⟩
    obtain ⟨steps, rfl⟩ := Nat.exists_eq_add_of_le' hpos
    induction steps generalizing name with
    | zero =>
      rw [Nat.zero_add, h.climb_one] at hclimb
      exact TransGen.single (namesParent_iff.mpr hclimb)
    | succ steps ih =>
      obtain ⟨parent, hparent, hrest⟩ := Option.bind_eq_some_iff.mp hclimb
      exact TransGen.head (namesParent_iff.mpr hparent) (ih (Nat.succ_pos steps) hrest)

theorem isCyclic_iff_transGen : h.isCyclic name = true ↔ TransGen h.NamesParent name name :=
  h.isCyclic_iff_climb.trans transGen_namesParent_iff.symm

/-- From a class on a circle every way up leads back: the first link can only be that of the
circle. -/
theorem transGen_back (hcircle : TransGen h.NamesParent name name)
    (habove : TransGen h.NamesParent name above) : TransGen h.NamesParent above name := by
  induction habove with
  | single hlink =>
    obtain ⟨parent, hparent, hback⟩ := TransGen.head'_iff.mp hcircle
    rw [hlink.unique hparent]
    exact TransGen.trans_right hback hcircle
  | tail _ hlink ih =>
    obtain ⟨parent, hparent, hback⟩ := TransGen.head'_iff.mp ih
    rw [hlink.unique hparent]
    exact TransGen.trans_right hback hcircle

theorem contains_of_transGen (habove : TransGen h.NamesParent name above) :
    h.contains name = true := by
  obtain ⟨parent, hlink, -⟩ := TransGen.head'_iff.mp habove
  exact h.contains_of_parentName? (namesParent_iff.mp hlink)

structure CircleSearch (h : Hierarchy) (name : String) : Prop where
  /-- The walk upward ends with the answer. It takes no more turns than there are classes, and
  more turns than it takes change nothing. -/
  ends : ∀ turns, h.size ≤ turns →
    h.comesTo? name turns [] (h.parentName? name) = some (h.isCyclic name)
  /-- The answer is that the name is a class from which links lead back to it. -/
  decides : h.isCyclic name = true ↔
    h.contains name = true ∧ TransGen h.NamesParent name name
  /-- The whole ancestry of a class on a circle is on circles. -/
  around : h.isCyclic name = true → ∀ above, TransGen h.NamesParent name above →
    h.isCyclic above = true
  /-- A class that hangs below a circle, or below anything from which no links lead back to it, is
  on none. -/
  below : ∀ above, TransGen h.NamesParent name above → ¬ TransGen h.NamesParent above name →
    h.isCyclic name = false
  /-- A class whose ancestry ends at a root or at a missing parent is on none. -/
  ended : ∀ last, ReflTransGen h.NamesParent name last → h.EndsAncestry last →
    h.isCyclic name = false

/-- The search for a circle ends for every name, and it finds a circle just when the name is on
one. -/
theorem circleSearch_isCyclic (h : Hierarchy) (name : String) : CircleSearch h name := by
  refine {
    ends := fun turns hturns => h.comesTo?_self hturns name
    decides := isCyclic_iff_transGen.trans
      ⟨fun hcircle => ⟨contains_of_transGen hcircle, hcircle⟩, And.right⟩
    around := fun hcyclic above habove => ?_
    below := fun above habove hno => ?_
    ended := fun last hlast hends => ?_ }
  · have hback := transGen_back (isCyclic_iff_transGen.mp hcyclic) habove
    exact isCyclic_iff_transGen.mpr (hback.trans habove)
  · by_contra hcyclic
    rw [Bool.not_eq_false] at hcyclic
    exact hno (transGen_back (isCyclic_iff_transGen.mp hcyclic) habove)
  · by_contra hcyclic
    rw [Bool.not_eq_false] at hcyclic
    have hcircle := isCyclic_iff_transGen.mp hcyclic
    -- The last name has a parent too, since a way up leads from it back to the start.
    have hback : TransGen h.NamesParent last name := by
      rcases reflTransGen_iff_eq_or_transGen.mp hlast with rfl | habove
      · exact hcircle
      · exact transGen_back hcircle habove
    obtain ⟨parent, hlink, -⟩ := TransGen.head'_iff.mp hback
    exact hends.not_namesParent hlink

/-- One class hangs below a circle of two. Its walk ends only where it comes to the first of them a
second time, so two turns are not enough. -/
example : let h : Hierarchy :=
      ⟨[⟨"A", some "B", false, none⟩, ⟨"B", some "A", false, none⟩, ⟨"C", some "A", false, none⟩],
        by decide⟩
    (["A", "B", "C"].map h.isCyclic, h.comesTo? "C" 2 [] (some "A")) =
      ([true, true, false], none) := by
  decide

end VtableMerge.Hierarchy
