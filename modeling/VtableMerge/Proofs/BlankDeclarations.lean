import VtableMerge.Proofs.Adoptions
import VtableMerge.Proofs.Precedence

/-!
Two ways to a new prototype. One is declared with what an observation tells, the other one is
declared blank and enriched by the observation afterwards. A blank prototype takes over every part
that it is shown, also one that tells nothing, and is in conflict with nothing. So both ways come
to the same, and a class that sees a slot first counts no more than one that sees it second.
-/
namespace VtableMerge

/-- A blank signature takes both names. -/
theorem adoptNames_unknown (seen : Signature) : (adoptNames Signature.unknown seen).1 =
    { Signature.unknown with name := seen.name, mangledName := seen.mangledName } := by
  have hblank : Signature.unknown.isNamed = false := rfl
  have hsymbol : (adoptMangledName "" seen.mangledName).1 = seen.mangledName :=
    (adoptMangledName_eq "" seen.mangledName).trans (if_pos rfl)
  cases hseen : seen.isNamed with
  | true =>
    rw [adoptNames_of_seen hblank hseen]
    exact congrArg (Signature.mk seen.name · unknownType Params.unknown) hsymbol
  | false =>
    rw [adoptNames_of_nameless hblank hseen, Signature.isNamed_eq_false_iff.mp hseen]
    exact congrArg (Signature.mk "" · unknownType Params.unknown) hsymbol

section Blank
variable {p : Prototype} (hblank : p.toSignature = Signature.unknown) (o : Observation)
  (className : String) (slotIndex : Nat)
include hblank

theorem enrich_blank_toSignature :
    (p.enrich o className slotIndex).prototype.toSignature = o.signature := by
  cases hbody : o.isPureVirtual with
  | true =>
    rw [p.enrich_of_pureVirtual className slotIndex hbody, Observation.signature, if_pos hbody]
    exact hblank
  | false =>
    have hreturn : (adoptReturnType unknownType o.returnType).1 = o.returnType :=
      (adoptReturnType_eq unknownType o.returnType).trans (if_pos rfl)
    have hparameters : (adoptParameters Params.unknown o.parameters).1 = o.parameters :=
      congrArg Prod.fst (adoptParameters_of_isUnknown rfl o.parameters)
    rw [p.enrich_toSignature className slotIndex hbody, hblank, adoptNames_unknown,
      Observation.signature, hbody]
    simp only [Signature.unknown, hreturn, hparameters]
    rfl

/-- Neither an empty name nor a placeholder list disagrees with anything. -/
theorem enrich_blank_conflicts : (p.enrich o className slotIndex).conflicts = [] := by
  cases hbody : o.isPureVirtual with
  | true => rw [p.enrich_of_pureVirtual className slotIndex hbody]
  | false =>
    have hname : p.nameConflict? o className slotIndex = none := by
      rw [Prototype.nameConflict?, hblank]
      rfl
    have hcount : p.countConflict? o className slotIndex = none := by
      rw [Prototype.countConflict?, hblank]
      rfl
    rw [p.enrich_of_body className slotIndex hbody, hname, hcount]
    rfl

end Blank

namespace Prototype

def blank (id : ProtoId) (className : String) (slotIndex : Nat) : Prototype :=
  { Signature.unknown with id, slotIndex, declaringClass := className }

theorem eq_of_toSignature_eq_of_origin_eq {p q : Prototype} (hsame : p.toSignature = q.toSignature)
    (horigin : p.origin = q.origin) : p = q := by
  obtain ⟨ps, pid, pslot, pclass⟩ := p
  obtain ⟨qs, qid, qslot, qclass⟩ := q
  obtain rfl : ps = qs := hsame
  obtain ⟨rfl, rfl, rfl⟩ : pid = qid ∧ pclass = qclass ∧ pslot = qslot := by
    simpa only [origin, Prod.mk.injEq] using horigin
  rfl

/-- It does not matter by which class and at which slot the observation was made. -/
theorem enrich_blank (id : ProtoId) (className : String) (slotIndex : Nat) (o : Observation)
    (observer : String) (position : Nat) :
    ((blank id className slotIndex).enrich o observer position).prototype =
      declared id className slotIndex o :=
  eq_of_toSignature_eq_of_origin_eq (enrich_blank_toSignature rfl o observer position)
    (enrich_origin _ o observer position)

end Prototype

/-- The prototype at the end of a table is enriched in its place. -/
theorem Merge.enrichInherited_append {table : PrototypeTable} {p : Prototype}
    (hid : p.id.index = table.size) (o : Observation) (observer : String) (position : Nat) :
    Merge.enrichInherited observer position p.id o ⟨table.prototypes ++ [p]⟩ =
      (⟨table.prototypes ++ [(p.enrich o observer position).prototype]⟩,
        (p.enrich o observer position).conflicts) := by
  have hlast : (table.prototypes ++ [p])[p.id.index]? = some p := by
    rw [hid]
    exact List.getElem?_concat_length
  have hset (q : Prototype) :
      (table.prototypes ++ [p]).set p.id.index q = table.prototypes ++ [q] := by
    rw [hid, PrototypeTable.size, List.set_append_right _ _ (Nat.le_refl _), Nat.sub_self]
    rfl
  simp only [Merge.enrichInherited, PrototypeTable.get?, hlast, PrototypeTable.set, hset]

/-- A slot that is declared from an observation gets the very prototype that it gets when it is
declared blank and then enriched by the observation, of whatever class and slot that is told, and
the enrichment finds no conflict. Where numbers do not run out, the tables are the same. -/
theorem create_signature_eq_enrich_blank (table : PrototypeTable) (className : String)
    (slotIndex : Nat) (o : Observation) (observer : String) (position : Nat) :
    ∃ blank : Prototype,
      table.create className slotIndex Signature.unknown =
        (⟨table.prototypes ++ [blank]⟩, blank.id) ∧
      table.create className slotIndex o.signature =
        (⟨table.prototypes ++ [(blank.enrich o observer position).prototype]⟩, blank.id) ∧
      (blank.enrich o observer position).conflicts = [] ∧
      (table.size < 2 ^ 32 →
        Merge.enrichInherited observer position blank.id o
            (table.create className slotIndex Signature.unknown).1 =
          ((table.create className slotIndex o.signature).1, [])) := by
  have henriched := Prototype.enrich_blank (.ofIndex table.size) className slotIndex o observer
    position
  have hdeclared : table.create className slotIndex o.signature =
      (⟨table.prototypes ++ [((Prototype.blank (.ofIndex table.size) className slotIndex).enrich o
        observer position).prototype]⟩, .ofIndex table.size) := by
    rw [henriched]
    rfl
  have hquiet : ((Prototype.blank (.ofIndex table.size) className slotIndex).enrich o observer
      position).conflicts = [] := enrich_blank_conflicts rfl o observer position
  refine ⟨.blank (.ofIndex table.size) className slotIndex, rfl, hdeclared, hquiet, fun hroom => ?_⟩
  rw [hdeclared, ← hquiet]
  exact Merge.enrichInherited_append (ProtoId.index_ofIndex hroom) o observer position

/-- A routine with a symbol, no name and no parameters, declared behind another prototype. -/
theorem create_signature_eq_enrich_blank_sample :
    let table : PrototypeTable := ⟨[.blank ⟨0⟩ "Device" 0]⟩
    let o : Observation := ⟨⟨"", "_ZN4Disk4stopEv", unknownType, []⟩, 1, false, true⟩
    table.size < 2 ^ 32 ∧
      Merge.enrichInherited "Tape" 1 ⟨1⟩ o (table.create "Disk" 1 Signature.unknown).1 =
        ((table.create "Disk" 1 o.signature).1, []) ∧
      (table.create "Disk" 1 o.signature).1.prototypes =
        [.blank ⟨0⟩ "Device" 0, ⟨⟨"", "_ZN4Disk4stopEv", unknownType, []⟩, ⟨1⟩, 1, "Disk"⟩] := by
  intro table o
  obtain ⟨blank, hblank, -, -, htable⟩ :=
    create_signature_eq_enrich_blank table "Disk" 1 o "Tape" 1
  have hid : blank.id = ⟨1⟩ := (congrArg Prod.snd hblank).symm
  have hroom : table.size < 2 ^ 32 := by decide
  exact ⟨hroom, hid ▸ htable hroom, rfl⟩

end VtableMerge
