import VtableMerge.Document.Class
import VtableMerge.Document.Prototype
import VtableMerge.Proofs.ReadingBack

/-!
Exported documents are read back. Each part of a class or a prototype entry is restored by its
reader, and a slot is read in the form in which it was written: the tuple is tried first, but no
object is a tuple.
-/
namespace VtableMerge

open Json

variable {depth : Nat}

theorem restores_optional_string (o : Option String) :
    Restores Reader.string.optional depth (.optional .string o) o :=
  restores_optional fun a _ => ⟨restores_string a, nofun⟩

theorem ProtoId.restores (id : ProtoId) : Restores ProtoId.reader depth id.toJson id := by
  have hnumber : Restores (Reader.natBelow UInt32.size "u32") depth (.nat id.index) id.index :=
    restores_natBelow "u32" id.number.toNat_lt (by decide)
  have h := (hnumber.map UInt32.ofNat).map ProtoId.mk
  rwa [show UInt32.ofNat id.index = id.number from UInt32.ofNat_toNat] at h

theorem Param.restores (p : Param) : Restores Param.reader depth p.toJson p :=
  restores_record (by decide) <|
    .cons (restores_string p.type) <| .cons (restores_optional_string p.name) .nil

theorem Params.restores (ps : Params) : Restores Params.reader depth ps.toJson ps :=
  restores_list fun p _ => p.restores

/-- A prototype whose slot has an index of 64 bits. -/
theorem Prototype.restores {p : Prototype} (hp : p.slotIndex < UInt64.size) :
    Restores Prototype.entryReader depth p.toEntryJson p :=
  restores_record (by decide) <|
    .cons (restores_string p.name) <| .cons (restores_string p.mangledName) <|
    .cons (restores_string p.returnType) <| .cons (Params.restores p.parameters) <|
    .cons (restores_size hp) <|
    .cons (restores_string p.declaringClass) <| .cons p.id.restores .nil

namespace VtableSlot

/-- The object form. -/
theorem restores_entry (s : VtableSlot) :
    Restores VtableSlot.entryReader depth s.toEntryJson s :=
  restores_record (by decide) <|
    .cons s.id.restores <| .cons (restores_bool s.isOverridden) <|
    .cons (restores_bool s.isPureVirtual) <| .cons (restores_optional_string s.mangledName) .nil

/-- The tuple form. -/
theorem restores_tuple (s : VtableSlot) :
    Restores VtableSlot.tupleReader depth s.toTupleJson s := by
  have hid := @ProtoId.restores (depth + 1) s.id
  have hsymbol := @restores_optional_string (depth + 1) s.mangledName
  refine ⟨.array ?_, ?_⟩
  · simp [hid.integral, hsymbol.integral, Value.Integral.bool]
  · simp only [toTupleJson, Value.raw, Value.rawItems, tupleReader, Reader.row, tupleFields,
      Fields.take, Field.required, hid.read, hsymbol.read, Reader.bool, bind, Except.bind]
    rfl

/-- No object is a tuple. -/
theorem tupleReader_toEntryJson (s : VtableSlot) :
    ∃ e, VtableSlot.tupleReader depth s.toEntryJson.raw = .error e := ⟨_, rfl⟩

end VtableSlot

namespace EncodedSlot

/-- A written slot can be kept, where it is not too deep inside a document. -/
theorem value_toJson (hdepth : depth < Raw.depthLimit) (e : EncodedSlot) :
    e.toJson.raw.value depth = .ok e.toJson := by
  obtain ⟨encoding, s⟩ := e
  have hnumber : s.id.index < UInt64.size :=
    Nat.lt_trans s.id.number.toNat_lt (by decide)
  have hid : (Numeral.ofInt s.id.index).value? = some (.int s.id.index) :=
    value?_ofInt (by omega) (by omega)
  have hsymbol : (Value.optional Value.string s.mangledName).raw.value (depth + 1) =
      .ok (.optional .string s.mangledName) := by
    cases s.mangledName <;> rfl
  cases encoding with
  | compact =>
    simp only [toJson, VtableSlot.toTupleJson, ProtoId.toJson, Value.nat, Value.raw, Value.rawItems,
      Raw.value, Raw.itemValues, if_pos hdepth, hid, hsymbol, bind, Except.bind]
    rfl
  | objects =>
    simp only [toJson, VtableSlot.toEntryJson, ProtoId.toJson, Value.nat, Value.raw,
      Value.rawFields, Raw.value, Raw.entryValues, if_pos hdepth, hid, hsymbol, bind, Except.bind]
    rfl

/-- A slot is read in the form it has. -/
theorem restores (hdepth : depth < Raw.depthLimit) (e : EncodedSlot) :
    Restores EncodedSlot.reader depth e.toJson e := by
  have hkept := value_toJson hdepth e
  obtain ⟨encoding, s⟩ := e
  cases encoding with
  | compact =>
    have htuple := (@VtableSlot.restores_tuple depth s).map (EncodedSlot.mk .compact)
    refine ⟨htuple.integral, ?_⟩
    simp only [reader, Reader.either, hkept]
    rw [show (EncodedSlot.mk .compact s).toJson = s.toTupleJson from rfl, htuple.read]
  | objects =>
    have hentry := (@VtableSlot.restores_entry depth s).map (EncodedSlot.mk .objects)
    obtain ⟨e, he⟩ := @VtableSlot.tupleReader_toEntryJson depth s
    have hother : (VtableSlot.tupleReader.map (EncodedSlot.mk .compact)) depth s.toEntryJson.raw =
        .error e := by rw [Reader.map, he]; rfl
    refine ⟨hentry.integral, ?_⟩
    simp only [reader, Reader.either, hkept]
    rw [show (EncodedSlot.mk .objects s).toJson = s.toEntryJson from rfl, hother, hentry.read]

end EncodedSlot

/-- An exported class, where its slots are not too deep inside the document. -/
theorem ClassEntry.restores (hdepth : depth + 2 < Raw.depthLimit) (c : ClassEntry) :
    Restores ClassEntry.reader depth c.toJson c :=
  restores_record (by decide) <|
    .cons (restores_string c.name) <| .cons (restores_optional_string c.parent) <|
    .cons (restores_bool c.isAbstract) <|
    .cons (restores_optional fun slots _ =>
      ⟨restores_list fun e _ => e.restores hdepth, nofun⟩) .nil

end VtableMerge
