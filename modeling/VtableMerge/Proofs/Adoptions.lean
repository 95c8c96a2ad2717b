import VtableMerge.Proofs.AdoptionRules
import VtableMerge.Proofs.Layout

/-!
What a single enrichment reports. Its flags tell exactly which parts of the prototype changed, and
it finds at most a conflict of names and then one of parameter counts. No rule depends on what
another one found. After it the observation has nothing more to give: folded in again at once, it
changes nothing, and it finds those conflicts again that the first time left standing.
-/
namespace VtableMerge

namespace Prototype
variable (p : Prototype) (o : Observation) (className : String) (slotIndex : Nat)

/-- The names come from the rule on names, the types from the others. -/
theorem enrich_toSignature {o : Observation} (hbody : o.isPureVirtual = false) :
    (p.enrich o className slotIndex).prototype.toSignature =
      { (adoptNames p.toSignature o.toSignature).1 with
        returnType := (adoptReturnType p.returnType o.returnType).1
        parameters := (adoptParameters p.parameters o.parameters).1 } := by
  rw [p.enrich_of_body className slotIndex hbody]

theorem kind_of_mem_nameConflict? {d : Diagnostic}
    (hd : d ∈ p.nameConflict? o className slotIndex) : d.kind = .nameMismatch := by
  obtain ⟨-, heq⟩ := Option.ite_none_right_eq_some.mp hd
  rw [← Option.some.inj heq]
  rfl

theorem kind_of_mem_countConflict? {d : Diagnostic}
    (hd : d ∈ p.countConflict? o className slotIndex) : d.kind = .parameterCountMismatch := by
  obtain ⟨-, heq⟩ := Option.ite_none_right_eq_some.mp hd
  rw [← Option.some.inj heq]
  rfl

section Again
variable {o : Observation} (hbody : o.isPureVirtual = false)
include hbody

theorem adoptNames_enrich :
    adoptNames (p.enrich o className slotIndex).prototype.toSignature o.toSignature =
      ((p.enrich o className slotIndex).prototype.toSignature, false) := by
  rw [p.enrich_toSignature className slotIndex hbody, adoptNames_with_types, adopting_names.again]

theorem nameConflict?_enrich :
    (p.enrich o className slotIndex).prototype.nameConflict? o className slotIndex =
      p.nameConflict? o className slotIndex := by
  have hsame := namesConflict_adoptNames p.toSignature o.toSignature
  cases hconflict : namesConflict p.name o.name with
  | false =>
    rw [hconflict] at hsame
    rw [p.enrich_of_body className slotIndex hbody, nameConflict?, nameConflict?, hconflict, hsame]
    rfl
  | true =>
    have hnamed : p.isNamed = true := isNamed_of_namesConflict hconflict
    rw [p.enrich_of_body className slotIndex hbody, nameConflict?, nameConflict?]
    simp only [adoptNames_of_named hnamed]
    rfl

/-- A list that was taken over is in no conflict any more. -/
theorem countConflict?_enrich :
    (p.enrich o className slotIndex).prototype.countConflict? o className slotIndex =
      if (p.enrich o className slotIndex).adopted.parameters then none
      else p.countConflict? o className slotIndex := by
  have hname := congrArg Signature.name (p.enrich_toSignature className slotIndex hbody)
  rw [countConflict?, p.adoptNames_enrich className slotIndex hbody, hname, countConflict?,
    p.enrich_of_body className slotIndex hbody]
  simp only [countsConflict_adoptParameters]
  cases hflag : (adoptParameters p.parameters o.parameters).2 with
  | true => simp
  | false =>
    simp only [adopting_parameters.eq_of_flag hflag, Bool.not_false, Bool.and_true]
    rfl

theorem adoptReturnType_enrich :
    adoptReturnType (p.enrich o className slotIndex).prototype.returnType o.returnType =
      ((p.enrich o className slotIndex).prototype.returnType, false) := by
  have htype := congrArg Signature.returnType (p.enrich_toSignature className slotIndex hbody)
  rw [htype, adopting_returnType.again]

theorem adoptParameters_enrich :
    adoptParameters (p.enrich o className slotIndex).prototype.parameters o.parameters =
      ((p.enrich o className slotIndex).prototype.parameters, false) := by
  have hlist := congrArg Signature.parameters (p.enrich_toSignature className slotIndex hbody)
  rw [hlist, adopting_parameters.again]

/-- The second time all rules rest. -/
theorem enrich_enrich_of_body :
    (p.enrich o className slotIndex).prototype.enrich o className slotIndex =
      ⟨(p.enrich o className slotIndex).prototype, Adopted.nothing,
        (p.nameConflict? o className slotIndex).toList ++
          (if (p.enrich o className slotIndex).adopted.parameters then none
            else p.countConflict? o className slotIndex).toList⟩ := by
  rw [enrich_of_body _ className slotIndex hbody, p.nameConflict?_enrich className slotIndex hbody,
    p.countConflict?_enrich className slotIndex hbody]
  simp only [p.adoptNames_enrich className slotIndex hbody,
    p.adoptReturnType_enrich className slotIndex hbody,
    p.adoptParameters_enrich className slotIndex hbody]
  rfl

end Again

end Prototype

def Enrichment.notedAfter (e : Enrichment) (earlier : Diagnostics) : Diagnostics :=
  earlier ++ e.conflicts

/-- The conflicts that stand after an enrichment. Parameters that were taken over agree in their
number now. -/
def Enrichment.standing (e : Enrichment) : Diagnostics :=
  e.conflicts.filter fun d => d.kind == .nameMismatch || !e.adopted.parameters

structure Accounts (p : Prototype) (className : String) (slotIndex : Nat) (e : Enrichment) :
    Prop where
  returnType_iff : e.adopted.returnType = true ↔ e.prototype.returnType ≠ p.returnType
  name_iff : e.adopted.name = true ↔
    (e.prototype.name, e.prototype.mangledName) ≠ (p.name, p.mangledName)
  parameters_iff : e.adopted.parameters = true ↔ e.prototype.parameters ≠ p.parameters
  origin_eq : e.prototype.origin = p.origin
  /-- At most one conflict of each kind, in this order. -/
  noted : ∀ earlier, ∃ names counts : Option Diagnostic,
    e.notedAfter earlier = earlier ++ names.toList ++ counts.toList ∧
      (∀ d ∈ names, d.kind = .nameMismatch) ∧ ∀ d ∈ counts, d.kind = .parameterCountMismatch
  located : ∀ d ∈ e.conflicts, d.className = className ∧ d.slotIndex = some slotIndex
  opposed : (∃ d ∈ e.conflicts, d.kind = .nameMismatch) →
    e.prototype.name = p.name ∧ e.prototype.mangledName = p.mangledName

theorem adoptNames_eq_self_iff {known seen : Signature} : (adoptNames known seen).1 = known ↔
    ((adoptNames known seen).1.name, (adoptNames known seen).1.mangledName) =
      (known.name, known.mangledName) := by
  constructor
  · intro heq
    rw [heq]
  · intro heq
    obtain ⟨hname, hmangled⟩ := Prod.mk.inj heq
    have hframe := congrArg Prod.fst
      (adoptNames_with_types known seen known.returnType known.parameters)
    have htypes : (adoptNames known seen).1 = { (adoptNames known seen).1 with
      returnType := known.returnType, parameters := known.parameters } := hframe
    rw [htypes]
    simp only [hname, hmangled]

theorem accounts_of_pureVirtual (p : Prototype) (className : String) (slotIndex : Nat) :
    Accounts p className slotIndex ⟨p, Adopted.nothing, []⟩ where
  returnType_iff := by simp [Adopted.nothing]
  name_iff := by simp [Adopted.nothing]
  parameters_iff := by simp [Adopted.nothing]
  origin_eq := rfl
  noted earlier := ⟨none, none, by simp [Enrichment.notedAfter], by simp, by simp⟩
  located := by simp
  opposed _ := ⟨rfl, rfl⟩

theorem accounts_enrich (p : Prototype) (o : Observation) (className : String)
    (slotIndex : Nat) : Accounts p className slotIndex (p.enrich o className slotIndex) := by
  cases hbody : o.isPureVirtual with
  | true =>
    rw [p.enrich_of_pureVirtual className slotIndex hbody]
    exact accounts_of_pureVirtual p className slotIndex
  | false =>
    have heq := p.enrich_of_body className slotIndex hbody
    refine {
      returnType_iff := ?_
      name_iff := ?_
      parameters_iff := ?_
      origin_eq := p.enrich_origin o className slotIndex
      noted := fun earlier => ⟨p.nameConflict? o className slotIndex,
        p.countConflict? o className slotIndex,
        by rw [Enrichment.notedAfter, heq, List.append_assoc],
        fun _ => p.kind_of_mem_nameConflict? o className slotIndex,
        fun _ => p.kind_of_mem_countConflict? o className slotIndex⟩
      located := fun d hd => ?_
      opposed := ?_ }
    · rw [heq]
      exact adopting_returnType.flag_iff p.returnType o.returnType
    · rw [heq]
      exact (adopting_names.flag_iff _ _).trans (not_congr adoptNames_eq_self_iff)
    · rw [heq]
      exact adopting_parameters.flag_iff p.parameters o.parameters
    · obtain ⟨hclass, hslot, -⟩ := Prototype.of_mem_enrich_conflicts hd
      exact ⟨hclass, hslot⟩
    · rintro ⟨d, hd, hkind⟩
      rw [heq, List.mem_append, Option.mem_toList, Option.mem_toList] at hd
      rcases hd with hd | hd
      · obtain ⟨hconflict, -⟩ := Option.ite_none_right_eq_some.mp hd
        have hnamed : p.isNamed = true := isNamed_of_namesConflict hconflict
        rw [heq]
        simp only [adoptNames_of_named hnamed, and_self]
      · rw [p.kind_of_mem_countConflict? o className slotIndex hd] at hkind
        cases hkind

/-- The types come out as they would if the names had agreed. -/
theorem enrich_of_agreeing_names (p : Prototype) (o : Observation) (className : String)
    (slotIndex : Nat) (name : String) :
    let e := p.enrich o className slotIndex
    let agreed := ({ p with name } : Prototype).enrich { o with name } className slotIndex
    agreed.prototype.returnType = e.prototype.returnType ∧
      agreed.prototype.parameters = e.prototype.parameters ∧
      ∀ d ∈ agreed.conflicts, d.kind ≠ .nameMismatch := by
  intro e agreed
  cases hbody : o.isPureVirtual with
  | true =>
    have he : e = _ := p.enrich_of_pureVirtual className slotIndex hbody
    have hagreed : agreed = _ :=
      Prototype.enrich_of_pureVirtual { p with name } className slotIndex
        (o := { o with name }) hbody
    simp [he, hagreed]
  | false =>
    have he : e = _ := p.enrich_of_body className slotIndex hbody
    have hagreed : agreed = _ :=
      Prototype.enrich_of_body { p with name } className slotIndex (o := { o with name }) hbody
    rw [he, hagreed]
    refine ⟨rfl, rfl, fun d hd => ?_⟩
    have hnone : ({ p with name } : Prototype).nameConflict? { o with name } className slotIndex =
      none := by simp [Prototype.nameConflict?, namesConflict]
    rw [hnone, Option.toList_none, List.nil_append, Option.mem_toList] at hd
    rw [Prototype.kind_of_mem_countConflict? _ _ className slotIndex hd]
    decide

theorem standing_enrich_of_body (p : Prototype) {o : Observation} (className : String)
    (slotIndex : Nat) (hbody : o.isPureVirtual = false) :
    (p.enrich o className slotIndex).standing =
      (p.nameConflict? o className slotIndex).toList ++
        (if (p.enrich o className slotIndex).adopted.parameters then none
          else p.countConflict? o className slotIndex).toList := by
  have hnames : ∀ d ∈ (p.nameConflict? o className slotIndex).toList, d.kind = .nameMismatch :=
    fun d hd => p.kind_of_mem_nameConflict? o className slotIndex (Option.mem_toList.mp hd)
  have hcounts : ∀ d ∈ (p.countConflict? o className slotIndex).toList,
      d.kind = .parameterCountMismatch :=
    fun d hd => p.kind_of_mem_countConflict? o className slotIndex (Option.mem_toList.mp hd)
  rw [Enrichment.standing, p.enrich_of_body className slotIndex hbody, List.filter_append]
  refine congrArg₂ (· ++ ·) ?_ ?_
  · exact List.filter_eq_self.mpr fun d hd => by simp [hnames d hd]
  · cases (adoptParameters p.parameters o.parameters).2 with
    | true => exact List.filter_eq_nil_iff.mpr fun d hd => by simp [hcounts d hd]
    | false => exact List.filter_eq_self.mpr fun d _ => by simp

/-- Folded in again at once, an observation changes nothing. -/
theorem enrich_enrich (p : Prototype) (o : Observation) (className : String) (slotIndex : Nat) :
    (p.enrich o className slotIndex).prototype.enrich o className slotIndex =
      ⟨(p.enrich o className slotIndex).prototype, Adopted.nothing,
        (p.enrich o className slotIndex).standing⟩ := by
  cases hbody : o.isPureVirtual with
  | true =>
    rw [p.enrich_of_pureVirtual className slotIndex hbody]
    exact p.enrich_of_pureVirtual className slotIndex hbody
  | false =>
    rw [standing_enrich_of_body p className slotIndex hbody]
    exact p.enrich_enrich_of_body className slotIndex hbody

/-- An enrichment tells of itself what it did, whatever was found before. Names that disagree keep
no type back. Enriched again at once with the same observation, the prototype stays as it is and
all flags are down; only the conflicts that stand are found again. -/
theorem accounts_and_settles_enrich (p : Prototype) (o : Observation) (className : String)
    (slotIndex : Nat) :
    let e := p.enrich o className slotIndex
    Accounts p className slotIndex e ∧
      (∀ name,
        let agreed := ({ p with name } : Prototype).enrich { o with name } className slotIndex
        agreed.prototype.returnType = e.prototype.returnType ∧
          agreed.prototype.parameters = e.prototype.parameters ∧
          ∀ d ∈ agreed.conflicts, d.kind ≠ .nameMismatch) ∧
      e.prototype.enrich o className slotIndex = ⟨e.prototype, Adopted.nothing, e.standing⟩ :=
  ⟨accounts_enrich p o className slotIndex, enrich_of_agreeing_names p o className slotIndex,
    enrich_enrich p o className slotIndex⟩

/-- The names stay in conflict, the empty list of parameters gives way. -/
example :
    let o : Observation := { Observation.concrete 1 "load" with
      returnType := "int", parameters := [Param.ofType "char"] }
    let e := Prototype.enrich ⟨⟨"read", "", unknownType, []⟩, ⟨0⟩, 1, "Device"⟩ o "Disk" 1
    e.conflicts.map Diagnostic.kind = [.nameMismatch, .parameterCountMismatch] ∧
      e.standing.map Diagnostic.kind = [.nameMismatch] ∧ e.adopted = ⟨true, false, true⟩ := by
  decide

end VtableMerge
