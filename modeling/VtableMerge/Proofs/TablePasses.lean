import VtableMerge.Proofs.Layout
import VtableMerge.Prototype.Naming

/-!
The passes over a finished table. Each goes through the prototypes in their order and replaces
those for which its rule gives another one. A rule has nothing to say about what it gave, and it
has nothing to say about what the other rule replaces, neither before nor after that. So the
passes may be repeated and may change places, and each counts the positions that it changes.
-/
namespace VtableMerge

namespace PrototypeTable

section Rules
variable {rule other : Prototype → Option Prototype} {t : PrototypeTable}

def SaysOnce (rule : Prototype → Option Prototype) : Prop := ∀ p q, rule p = some q → rule q = none

/-- The other rule has nothing to say about what the rule replaces, nor about what it gives. -/
def Apart (rule other : Prototype → Option Prototype) : Prop :=
  ∀ p q, rule p = some q → other p = none ∧ other q = none

theorem getElem?_revise {k : Nat} {p : Prototype} (hp : t.prototypes[k]? = some p) :
    (t.revise rule).1.prototypes[k]? = some ((rule p).getD p) := by
  simp [revise, hp]

theorem revise_eq_self (hnone : ∀ p ∈ t.prototypes, rule p = none) : t.revise rule = (t, 0) := by
  have hsame : t.prototypes.map (fun p => (rule p).getD p) = t.prototypes := by
    refine (List.map_congr_left fun p hp => ?_).trans (List.map_id _)
    rw [hnone p hp]
    rfl
  have hcount : t.prototypes.countP (fun p => (rule p).isSome) = 0 := by
    rw [List.countP_eq_zero]
    intro p hp
    simp [hnone p hp]
  rw [revise, hsame, hcount]

/-- A second time nothing is left to replace. -/
theorem revise_revise (hrule : SaysOnce rule) :
    (t.revise rule).1.revise rule = ((t.revise rule).1, 0) := by
  apply revise_eq_self
  intro p hp
  obtain ⟨q, -, rfl⟩ := List.mem_map.mp hp
  cases hq : rule q with
  | none => exact hq
  | some r => exact hrule q r hq

theorem revise_comm (hrule : Apart rule other) (hother : Apart other rule) :
    ((t.revise rule).1.revise other).1 = ((t.revise other).1.revise rule).1 := by
  simp only [revise, List.map_map]
  congr 1
  apply List.map_congr_left
  intro p _
  -- At most one of the rules says something about a prototype.
  cases hp : rule p with
  | some q =>
    obtain ⟨hsame, hgiven⟩ := hrule p q hp
    simp [hp, hsame, hgiven]
  | none =>
    cases hp' : other p with
    | some q => simp [hp, hp', (hother p q hp').2]
    | none => simp [hp, hp']

/-- A pass counts the same after a pass with nothing to say about its prototypes. -/
theorem revise_count (hrule : Apart rule other) :
    ((t.revise rule).1.revise other).2 = (t.revise other).2 := by
  simp only [revise, List.countP_map]
  apply List.countP_congr
  intro p _
  cases hp : rule p with
  | none => simp [hp]
  | some q =>
    obtain ⟨hsame, hgiven⟩ := hrule p q hp
    simp [hp, hsame, hgiven]

def differences (t t' : PrototypeTable) : Nat :=
  (List.range t.size).countP fun k => t'.prototypes[k]? != t.prototypes[k]?

/-- A rule that has nothing to say about what it gave has given something else. -/
theorem revise_differences (hrule : SaysOnce rule) :
    (t.revise rule).2 = t.differences (t.revise rule).1 := by
  have hflags : t.prototypes.map (fun p => (rule p).isSome) =
      (List.range t.size).map fun k =>
        (t.revise rule).1.prototypes[k]? != t.prototypes[k]? := by
    apply List.ext_getElem
    · simp [size]
    · intro k hk _
      have hlt : k < t.prototypes.length := by simpa using hk
      simp only [revise, List.getElem_map, List.getElem_range, List.getElem?_map,
        List.getElem?_eq_getElem hlt, Option.map_some]
      cases hp : rule t.prototypes[k] with
      | none => simp
      | some q =>
        have hne : q ≠ t.prototypes[k] := by
          rintro rfl
          rw [hrule _ _ hp] at hp
          cases hp
        simp [hne]
  calc
    (t.revise rule).2 = (t.prototypes.map fun p => (rule p).isSome).countP id := by
      rw [List.countP_map]
      rfl
    _ = t.differences (t.revise rule).1 := by
      rw [hflags, List.countP_map]
      rfl

end Rules

end PrototypeTable

namespace Prototype
variable {p q r : Prototype}

theorem isVoidGetter_iff :
    p.isVoidGetter = true ↔ "get".toList <+: p.name.toList ∧ p.returnType = "void" := by
  simp [isVoidGetter]

theorem isNamed_iff : p.isNamed = true ↔ p.name ≠ "" := by
  simp [Signature.isNamed]

theorem isNamed_of_isVoidGetter (hp : p.isVoidGetter = true) : p.isNamed = true := by
  obtain ⟨⟨rest, hrest⟩, -⟩ := isVoidGetter_iff.mp hp
  rw [isNamed_iff]
  intro hname
  rw [hname] at hrest
  cases hrest

/-- No getter loses a return type that is unknown. -/
theorem isVoidGetter_of_unknown (hp : p.returnType = unknownType) : p.isVoidGetter = false := by
  rw [isVoidGetter, hp]
  exact Bool.and_false _

theorem placeholderName_ne_empty (slotIndex : Nat) : placeholderName slotIndex ≠ "" := by
  rw [placeholderName, Ne, String.append_eq_empty_iff]
  exact fun hempty => absurd hempty.1 (by decide)

theorem withoutVoidReturn?_eq_some_iff :
    p.withoutVoidReturn? = some q ↔
      p.isVoidGetter = true ∧ q = { p with returnType := unknownType } := by
  rw [withoutVoidReturn?, Option.ite_none_right_eq_some, Option.some.injEq, eq_comm (a := q)]

theorem withPlaceholderName?_eq_some_iff :
    p.withPlaceholderName? = some q ↔
      p.isNamed = false ∧ q =
        { p with
          name := placeholderName p.slotIndex
          mangledName := p.declaringClass ++ "::" ++ placeholderName p.slotIndex
          returnType := unknownType
          parameters := Params.unknown } := by
  rw [withPlaceholderName?, Option.ite_none_left_eq_some, Option.some.injEq, eq_comm (a := q),
    Bool.not_eq_true]

theorem isSome_withoutVoidReturn? (p : Prototype) :
    p.withoutVoidReturn?.isSome = p.isVoidGetter := by
  unfold withoutVoidReturn?
  split <;> simp_all

theorem isSome_withPlaceholderName? (p : Prototype) :
    p.withPlaceholderName?.isSome = !p.isNamed := by
  unfold withPlaceholderName?
  split <;> simp_all

theorem withoutVoidReturn?_eq_none_iff : p.withoutVoidReturn? = none ↔ p.isVoidGetter = false := by
  rw [← Option.not_isSome_iff_eq_none, isSome_withoutVoidReturn?, Bool.not_eq_true]

theorem withPlaceholderName?_eq_none_iff : p.withPlaceholderName? = none ↔ p.isNamed = true := by
  rw [← Option.not_isSome_iff_eq_none, isSome_withPlaceholderName?, Bool.not_eq_true,
    Bool.not_eq_false']

/-- One prototype in the place of another one. What a named one tells stays, but a getter may
lose the return type `void`. -/
structure Revised (p q : Prototype) : Prop where
  origin : q.origin = p.origin
  name : p.isNamed = true → q.name = p.name
  mangledName : p.isNamed = true → q.mangledName = p.mangledName
  parameters : p.isNamed = true → q.parameters = p.parameters
  returnType : p.isNamed = true → q.returnType = p.returnType ∨
    "get".toList <+: p.name.toList ∧ p.returnType = "void" ∧ q.returnType = unknownType

theorem Revised.refl (p : Prototype) : p.Revised p :=
  ⟨rfl, fun _ => rfl, fun _ => rfl, fun _ => rfl, fun _ => .inl rfl⟩

theorem Revised.isNamed (h : p.Revised q) (hp : p.isNamed = true) : q.isNamed = true := by
  rw [isNamed_iff, h.name hp]
  exact isNamed_iff.mp hp

theorem Revised.trans (h : p.Revised q) (h' : q.Revised r) : p.Revised r where
  origin := h'.origin.trans h.origin
  name hp := (h'.name (h.isNamed hp)).trans (h.name hp)
  mangledName hp := (h'.mangledName (h.isNamed hp)).trans (h.mangledName hp)
  parameters hp := (h'.parameters (h.isNamed hp)).trans (h.parameters hp)
  returnType hp := by
    have hlater := h'.returnType (h.isNamed hp)
    rw [h.name hp] at hlater
    rcases h.returnType hp with hsame | ⟨hget, hvoid, hunknown⟩
    · rwa [hsame] at hlater
    · -- An unknown return type is not lost again.
      rcases hlater with hsame | ⟨-, hagain, -⟩
      · exact .inr ⟨hget, hvoid, hsame.trans hunknown⟩
      · rw [hunknown] at hagain
        exact absurd hagain (by decide)

theorem revised_of_withoutVoidReturn? (hq : p.withoutVoidReturn? = some q) : p.Revised q := by
  obtain ⟨hgetter, rfl⟩ := withoutVoidReturn?_eq_some_iff.mp hq
  obtain ⟨hget, hvoid⟩ := isVoidGetter_iff.mp hgetter
  exact ⟨rfl, fun _ => rfl, fun _ => rfl, fun _ => rfl, fun _ => .inr ⟨hget, hvoid, rfl⟩⟩

theorem revised_of_withPlaceholderName? (hq : p.withPlaceholderName? = some q) : p.Revised q := by
  obtain ⟨hnameless, rfl⟩ := withPlaceholderName?_eq_some_iff.mp hq
  have hno : p.isNamed ≠ true := ne_true_of_eq_false hnameless
  exact ⟨rfl, fun hp => absurd hp hno, fun hp => absurd hp hno, fun hp => absurd hp hno,
    fun hp => absurd hp hno⟩

theorem revised_getD {rule : Prototype → Option Prototype}
    (hrule : ∀ {p q}, rule p = some q → Revised p q) (p : Prototype) :
    p.Revised ((rule p).getD p) := by
  cases hq : rule p with
  | none => exact .refl p
  | some q => exact hrule hq

end Prototype

namespace PrototypeTable
variable {t t' t'' : PrototypeTable} {rule : Prototype → Option Prototype}

open Prototype

theorem saysOnce_withoutVoidReturn? : SaysOnce withoutVoidReturn? := by
  intro p q hq
  obtain ⟨-, rfl⟩ := withoutVoidReturn?_eq_some_iff.mp hq
  exact withoutVoidReturn?_eq_none_iff.mpr (isVoidGetter_of_unknown rfl)

theorem saysOnce_withPlaceholderName? : SaysOnce withPlaceholderName? := by
  intro p q hq
  obtain ⟨-, rfl⟩ := withPlaceholderName?_eq_some_iff.mp hq
  exact withPlaceholderName?_eq_none_iff.mpr (isNamed_iff.mpr (placeholderName_ne_empty _))

/-- A getter has a name, and it keeps it. -/
theorem apart_withoutVoidReturn? : Apart withoutVoidReturn? withPlaceholderName? := by
  intro p q hq
  obtain ⟨hgetter, rfl⟩ := withoutVoidReturn?_eq_some_iff.mp hq
  have hnamed := isNamed_of_isVoidGetter hgetter
  exact ⟨withPlaceholderName?_eq_none_iff.mpr hnamed, withPlaceholderName?_eq_none_iff.mpr hnamed⟩

/-- What has no name is no getter, and what gets a made-up name gets no return type. -/
theorem apart_withPlaceholderName? : Apart withPlaceholderName? withoutVoidReturn? := by
  intro p q hq
  obtain ⟨hnameless, rfl⟩ := withPlaceholderName?_eq_some_iff.mp hq
  refine ⟨withoutVoidReturn?_eq_none_iff.mpr ?_,
    withoutVoidReturn?_eq_none_iff.mpr (isVoidGetter_of_unknown rfl)⟩
  by_contra hgetter
  rw [isNamed_of_isVoidGetter (by simpa using hgetter)] at hnameless
  cases hnameless

/-- The getters are counted among the prototypes before the pass. -/
theorem fixVoidGetters_count (t : PrototypeTable) :
    t.fixVoidGetters.2 = t.prototypes.countP isVoidGetter := by
  show List.countP _ _ = _
  simp only [isSome_withoutVoidReturn?]

theorem synthesizePlaceholders_count (t : PrototypeTable) :
    t.synthesizePlaceholders.2 = t.prototypes.countP fun p => !p.isNamed := by
  show List.countP _ _ = _
  simp only [isSome_withPlaceholderName?]

structure Revision (t t' : PrototypeTable) : Prop where
  size : t'.size = t.size
  revised : ∀ (k : Nat) (p : Prototype), t.prototypes[k]? = some p →
    ∃ q, t'.prototypes[k]? = some q ∧ p.Revised q

theorem Revision.trans (h : t.Revision t') (h' : t'.Revision t'') : t.Revision t'' where
  size := h'.size.trans h.size
  revised k p hp := by
    obtain ⟨q, hq, hpq⟩ := h.revised k p hp
    obtain ⟨r, hr, hqr⟩ := h'.revised k q hq
    exact ⟨r, hr, hpq.trans hqr⟩

theorem revision_revise (hrule : ∀ {p q}, rule p = some q → Revised p q) (t : PrototypeTable) :
    t.Revision (t.revise rule).1 where
  size := by simp [size, revise]
  revised _ p hp := ⟨(rule p).getD p, getElem?_revise hp, revised_getD hrule p⟩

theorem revision_fixVoidGetters (t : PrototypeTable) : t.Revision t.fixVoidGetters.1 :=
  revision_revise revised_of_withoutVoidReturn? t

theorem revision_synthesizePlaceholders (t : PrototypeTable) :
    t.Revision t.synthesizePlaceholders.1 :=
  revision_revise revised_of_withPlaceholderName? t

theorem isNamed_of_mem_synthesizePlaceholders {q : Prototype}
    (hq : q ∈ t.synthesizePlaceholders.1.prototypes) : q.isNamed = true := by
  obtain ⟨p, -, rfl⟩ := List.mem_map.mp hq
  cases hp : p.withPlaceholderName? with
  | none => exact withPlaceholderName?_eq_none_iff.mp hp
  | some q => exact withPlaceholderName?_eq_none_iff.mp (saysOnce_withPlaceholderName? p q hp)

/-- A getter that returns nothing gets an unknown return type and keeps it. -/
theorem getElem?_passes_of_isVoidGetter {k : Nat} {p : Prototype}
    (hp : t.prototypes[k]? = some p) (hgetter : p.isVoidGetter = true) :
    t.fixVoidGetters.1.synthesizePlaceholders.1.prototypes[k]? =
      some { p with returnType := unknownType } := by
  have hfixed := withoutVoidReturn?_eq_some_iff.mpr ⟨hgetter, rfl⟩
  have hnamed := (apart_withoutVoidReturn? p _ hfixed).2
  have hfirst := @getElem?_revise withoutVoidReturn? t k p hp
  rw [hfixed, Option.getD_some] at hfirst
  have hsecond := @getElem?_revise withPlaceholderName? t.fixVoidGetters.1 k _ hfirst
  rwa [hnamed, Option.getD_none] at hsecond

structure PassesSettle (t : PrototypeTable) : Prop where
  /-- In either order they give the same table and the same two counts. -/
  commute : t.fixVoidGetters.1.synthesizePlaceholders.1 =
    t.synthesizePlaceholders.1.fixVoidGetters.1
  counts : t.fixVoidGetters.2 = t.synthesizePlaceholders.1.fixVoidGetters.2 ∧
    t.fixVoidGetters.1.synthesizePlaceholders.2 = t.synthesizePlaceholders.2
  getters_again : t.fixVoidGetters.1.fixVoidGetters = (t.fixVoidGetters.1, 0)
  names_again : t.synthesizePlaceholders.1.synthesizePlaceholders = (t.synthesizePlaceholders.1, 0)
  getters_count : t.fixVoidGetters.2 = t.differences t.fixVoidGetters.1
  names_count : t.synthesizePlaceholders.2 = t.differences t.synthesizePlaceholders.1
  getters_found : t.fixVoidGetters.2 = t.prototypes.countP isVoidGetter
  names_found : t.synthesizePlaceholders.2 = t.prototypes.countP fun p => !p.isNamed
  getters_revise : t.Revision t.fixVoidGetters.1
  names_revise : t.Revision t.synthesizePlaceholders.1
  both_revise : t.Revision t.fixVoidGetters.1.synthesizePlaceholders.1
  fixed : ∀ (k : Nat) (p : Prototype), t.prototypes[k]? = some p →
    "get".toList <+: p.name.toList → p.returnType = "void" →
    t.fixVoidGetters.1.synthesizePlaceholders.1.prototypes[k]? =
      some { p with returnType := unknownType }
  named : ∀ p ∈ t.fixVoidGetters.1.synthesizePlaceholders.1.prototypes, p.isNamed = true

/-- The passes may change places and be repeated, and they count what they change. The table keeps
its size and the origin of each prototype, and a named prototype keeps all but the return
type `void` of a getter. In the end no getter has that type and all prototypes are named. -/
theorem passesSettle (t : PrototypeTable) : t.PassesSettle where
  commute := revise_comm apart_withoutVoidReturn? apart_withPlaceholderName?
  counts := ⟨(revise_count apart_withPlaceholderName?).symm, revise_count apart_withoutVoidReturn?⟩
  getters_again := revise_revise saysOnce_withoutVoidReturn?
  names_again := revise_revise saysOnce_withPlaceholderName?
  getters_count := revise_differences saysOnce_withoutVoidReturn?
  names_count := revise_differences saysOnce_withPlaceholderName?
  getters_found := t.fixVoidGetters_count
  names_found := t.synthesizePlaceholders_count
  getters_revise := t.revision_fixVoidGetters
  names_revise := t.revision_synthesizePlaceholders
  both_revise := t.revision_fixVoidGetters.trans (revision_synthesizePlaceholders _)
  fixed _ _ hp hget hvoid :=
    getElem?_passes_of_isVoidGetter hp (isVoidGetter_iff.mpr ⟨hget, hvoid⟩)
  named _ hp := isNamed_of_mem_synthesizePlaceholders hp

end PrototypeTable

end VtableMerge
