import VtableMerge.Proofs.Accord
import VtableMerge.Proofs.ConflictFree
import VtableMerge.Proofs.Growth

/-!
What a prototype knows after any number of observations, whatever they disagree on. Return type and
name are the first known ones. The symbol is the first one told before a name is known, or together
with it. The parameters are those of the first list that tells of any, and each of their types is
the first one known at its position among the lists of that length.
-/
namespace VtableMerge

def Signature.untilNamed : List Signature → List Signature
  | [] => []
  | s :: rest => if s.isNamed then [s] else s :: untilNamed rest

/-- The lists that can tell a type to a list of some length: those of that length, but no
placeholder. -/
def Params.ofLength (n : Nat) (lists : List Params) : List Params :=
  lists.filter fun l => l.length == n && !l.isUnknown

/-- A parameter list that has length and names from one list, and its types from that list and the
later ones of its length. -/
structure BasedOn (base : Params) (later : List Params) (params : Params) : Prop where
  length_eq : params.length = base.length
  names_eq : params.map Param.name = base.map Param.name
  type_eq : ∀ j < base.length, params.typeAt? j = some (firstKnown unknownType
    (Params.typesAt (Params.ofLength base.length (base :: later)) j))

/-- A parameter list after others in their order. As long as there are only placeholders the last
one stays, and an empty list outlasts placeholders. The first list that tells of a parameter is the
one that the result is based on. -/
structure FirstKnownParams (lists : List Params) (params : Params) : Prop where
  placeholder : (∀ l ∈ lists, l.isUnknown = true) →
    params.isUnknown = true ∧ lists.getLast? = some params
  empty : (∃ l ∈ lists, l.isUnknown = false) → (∀ l ∈ lists, l.isUnknown = false → l = []) →
    params = []
  based : ∀ (before : List Params) (base : Params) (later : List Params),
    lists = before ++ base :: later → (∀ l ∈ before, l = [] ∨ l.isUnknown = true) →
      base ≠ [] → base.isUnknown = false → BasedOn base later params

structure FirstKnown (told : List Signature) (known : Signature) : Prop where
  name : known.name = firstKnown "" (told.map Signature.name)
  mangledName :
    known.mangledName = firstKnown "" ((Signature.untilNamed told).map Signature.mangledName)
  returnType : known.returnType = firstKnown unknownType (told.map Signature.returnType)
  parameters : FirstKnownParams (told.map Signature.parameters) known.parameters

section Names
variable {told : List Signature} {known : Signature}

theorem firstKnown_singleton (blank text : String) : firstKnown blank [text] = text :=
  (@firstKnown_append blank [] text).trans (if_pos rfl)

theorem Signature.isNamed_eq_false_iff {s : Signature} : s.isNamed = false ↔ s.name = "" := by
  simp [Signature.isNamed]

/-- Behind a name no further symbol is looked at. -/
theorem Signature.untilNamed_append_of_named (hnamed : ∃ s ∈ told, s.name ≠ "") (seen : Signature) :
    untilNamed (told ++ [seen]) = untilNamed told := by
  induction told with
  | nil => simp at hnamed
  | cons s rest ih =>
    simp only [List.cons_append, untilNamed]
    split
    · rfl
    · next hs =>
      have hblank : s.name = "" := isNamed_eq_false_iff.mp (by simpa using hs)
      rw [ih (by simpa [hblank] using hnamed)]

theorem Signature.untilNamed_append_of_nameless (hnone : ∀ s ∈ told, s.name = "")
    (seen : Signature) : untilNamed (told ++ [seen]) = untilNamed told ++ [seen] := by
  induction told with
  | nil => simp [untilNamed]
  | cons s rest ih =>
    obtain ⟨hs, hrest⟩ := List.forall_mem_cons.mp hnone
    simp [untilNamed, isNamed_eq_false_iff.mpr hs, ih hrest]

theorem adoptMangledName_eq (known seen : String) :
    (adoptMangledName known seen).1 = if known = "" then seen else known := by
  unfold adoptMangledName
  by_cases hknown : known = ""
  · by_cases hseen : seen = "" <;> simp [hknown, hseen]
  · simp [hknown]

theorem adoptNames_mangledName_eq (known seen : Signature) :
    (adoptNames known seen).1.mangledName =
      if known.name = "" then (if known.mangledName = "" then seen.mangledName
        else known.mangledName) else known.mangledName := by
  by_cases hknown : known.name = ""
  · have hnamed : known.isNamed = false := Signature.isNamed_eq_false_iff.mpr hknown
    rw [if_pos hknown, ← adoptMangledName_eq, adoptNames, hnamed]
    cases hseen : seen.isNamed with
    | true => simp
    | false => simp
  · have hnamed : known.isNamed = true := by simpa [Signature.isNamed] using hknown
    rw [if_neg hknown, adoptNames, hnamed, if_pos rfl]

/-- A symbol is taken only before there is a name. -/
theorem mangledName_append (hname : known.name = firstKnown "" (told.map Signature.name))
    (hsymbol : known.mangledName =
      firstKnown "" ((Signature.untilNamed told).map Signature.mangledName)) (seen : Signature) :
    (adoptNames known seen).1.mangledName =
      firstKnown "" ((Signature.untilNamed (told ++ [seen])).map Signature.mangledName) := by
  have hblank : known.name = "" ↔ ∀ s ∈ told, s.name = "" := by
    rw [hname, firstKnown_eq_blank_iff, List.forall_mem_map]
  rw [adoptNames_mangledName_eq]
  by_cases hnone : known.name = ""
  · rw [if_pos hnone, Signature.untilNamed_append_of_nameless (hblank.mp hnone), List.map_append,
      List.map_singleton, firstKnown_append, ← hsymbol]
  · have hnamed : ∃ s ∈ told, s.name ≠ "" := by simpa [hblank] using hnone
    rw [if_neg hnone, Signature.untilNamed_append_of_named hnamed, hsymbol]

end Names

namespace Params
variable {n : Nat} {lists : List Params} {seen : Params}

theorem ofLength_append_of_fits (hlength : seen.length = n) (hseen : seen.isUnknown = false) :
    ofLength n (lists ++ [seen]) = ofLength n lists ++ [seen] := by
  simp [ofLength, hlength, hseen]

theorem ofLength_append_of_not_fits (h : seen.length = n → seen.isUnknown = true) :
    ofLength n (lists ++ [seen]) = ofLength n lists := by
  by_cases hlength : seen.length = n
  · simp [ofLength, h hlength]
  · simp [ofLength, hlength]

end Params

namespace BasedOn
variable {base params seen : Params} {later : List Params}

theorem self (hbase : base.isUnknown = false) : BasedOn base [] base where
  length_eq := rfl
  names_eq := rfl
  type_eq j hj := by
    obtain ⟨type, htype⟩ := Params.exists_typeAt? hj
    have hself : Params.ofLength base.length [base] = [base] := by simp [Params.ofLength, hbase]
    rw [hself, Params.typesAt, List.filterMap_cons, htype]
    exact congrArg some (firstKnown_singleton unknownType type).symm

/-- A list that does not fit is no source of types. -/
theorem append_of_not_fits (h : BasedOn base later params)
    (hseen : seen.length = base.length → seen.isUnknown = true) :
    BasedOn base (later ++ [seen]) params where
  length_eq := h.length_eq
  names_eq := h.names_eq
  type_eq := by
    rw [← List.cons_append, Params.ofLength_append_of_not_fits hseen]
    exact h.type_eq

theorem append_fillTypes (h : BasedOn base later params) (hlength : seen.length = base.length)
    (hseen : seen.isUnknown = false) :
    BasedOn base (later ++ [seen]) (fillTypes params seen).1 where
  length_eq := (fillTypes_length params seen).trans h.length_eq
  names_eq := (Params.fillTypes_names params seen).trans h.names_eq
  type_eq j hj := by
    obtain ⟨type, htype⟩ := Params.exists_typeAt? (hlength ▸ hj)
    rw [fillTypes_typeAt? (h.length_eq.trans hlength.symm) (h.type_eq j hj) htype,
      ← List.cons_append, Params.ofLength_append_of_fits hlength hseen,
      UnopposedParams.typesAt_append, htype, Option.toList_some, firstKnown_append]

/-- Enrichment keeps the base. -/
theorem append (h : BasedOn base later params) (hparams : params.isUnknown = false)
    (hne : base ≠ []) (seen : Params) :
    BasedOn base (later ++ [seen]) (adoptParameters params seen).1 := by
  unfold adoptParameters
  rw [if_neg (by simp [hparams])]
  split
  · next hseen => exact h.append_of_not_fits fun _ => hseen
  · next hseen =>
    have hseen : seen.isUnknown = false := by simpa using hseen
    split
    · next hlength =>
      have hlength : params.length ≠ seen.length := by simpa using hlength
      rw [h.length_eq] at hlength
      have hparams : params.isEmpty = false := by
        rw [List.isEmpty_eq_false_iff, ← List.length_pos_iff, h.length_eq]
        exact List.length_pos_iff.mpr hne
      rw [hparams]
      exact h.append_of_not_fits fun heq => absurd heq.symm hlength
    · next hlength =>
      have hlength : params.length = seen.length := by simpa using hlength
      exact h.append_fillTypes (hlength.symm.trans h.length_eq) hseen

end BasedOn

namespace FirstKnownParams
variable {lists : List Params} {params seen : Params}

theorem singleton (params : Params) : FirstKnownParams [params] params where
  placeholder hall := ⟨hall params (List.mem_singleton_self _), rfl⟩
  empty hsome hall := by
    obtain ⟨l, hl, hknown⟩ := hsome
    obtain rfl := List.mem_singleton.mp hl
    exact hall l hl hknown
  based before base later hsplit hbefore hne hbase := by
    obtain ⟨-, rfl, rfl⟩ : before = [] ∧ params = base ∧ later = [] := by
      cases before with
      | nil => simpa using hsplit
      | cons first rest => simp at hsplit
    exact BasedOn.self hbase

/-- A list that tells of a parameter is taken as it is, when nothing but placeholders and empty
lists came before. -/
theorem adoptParameters_of_idle (hg : GathersParams lists params)
    (hidle : ∀ l ∈ lists, l = [] ∨ l.isUnknown = true) (hne : seen ≠ [])
    (hseen : seen.isUnknown = false) : (adoptParameters params seen).1 = seen := by
  unfold adoptParameters
  split
  · rfl
  · next hparams =>
    obtain rfl := hg.eq_nil_of_forall (by simpa using hparams) hidle
    have hlength : (([] : Params).length != seen.length) = true := by
      simpa using (List.length_pos_iff.mpr hne).ne
    rw [if_neg (by simp [hseen]), if_pos hlength]
    rfl

theorem append (hg : GathersParams lists params) (h : FirstKnownParams lists params)
    (seen : Params) : FirstKnownParams (lists ++ [seen]) (adoptParameters params seen).1 where
  placeholder hall := by
    obtain ⟨hparams, -⟩ := h.placeholder fun l hl => hall l (List.mem_append_left _ hl)
    rw [adoptParameters, if_pos hparams]
    exact ⟨hall seen (by simp), List.getLast?_concat⟩
  empty hsome hall := by
    obtain ⟨l, hl, hknown⟩ := hsome
    refine (hg.append seen).eq_nil_iff.mpr ⟨hall l hl hknown ▸ hl, fun l hl => ?_⟩
    cases hl' : l.isUnknown with
    | true => exact Or.inr rfl
    | false => exact Or.inl (hall l hl hl')
  based before base later hsplit hbefore hne hbase := by
    rcases later.eq_nil_or_concat with rfl | ⟨front, last, rfl⟩
    · obtain ⟨rfl, heq⟩ := List.append_inj' hsplit rfl
      obtain rfl := List.singleton_inj.mp heq
      rw [adoptParameters_of_idle hg hbefore hne hbase]
      exact BasedOn.self hbase
    · rw [List.concat_eq_append, ← List.cons_append, ← List.append_assoc] at hsplit
      obtain ⟨rfl, heq⟩ := List.append_inj' hsplit rfl
      obtain rfl := List.singleton_inj.mp heq
      have hmem : base ∈ before ++ base :: front := by simp
      rw [List.concat_eq_append]
      exact (h.based before base front rfl hbefore hne hbase).append
        (hg.isUnknown_eq_false_of_mem hmem hbase) hne seen

end FirstKnownParams

namespace FirstKnown
variable {told : List Signature} {known : Signature}

theorem singleton (s : Signature) : FirstKnown [s] s where
  name := (firstKnown_singleton "" s.name).symm
  mangledName := by
    have hself : Signature.untilNamed [s] = [s] := by
      cases hs : s.isNamed <;> simp [Signature.untilNamed, hs]
    rw [hself]
    exact (firstKnown_singleton "" s.mangledName).symm
  returnType := (firstKnown_singleton unknownType s.returnType).symm
  parameters := FirstKnownParams.singleton s.parameters

/-- Enrichment with one more observation. -/
theorem enrich {p : Prototype} (h : FirstKnown told p.toSignature) (hg : Gathers told p.toSignature)
    (o : Observation) (className : String) (slotIndex : Nat) :
    FirstKnown (told ++ o.told) (p.enrich o className slotIndex).prototype.toSignature := by
  unfold Prototype.enrich Observation.told
  split
  · rwa [List.append_nil]
  · refine {
      name := ?_
      mangledName := mangledName_append h.name h.mangledName o.toSignature
      returnType := ?_
      parameters := by simpa using FirstKnownParams.append hg.parameters h.parameters o.parameters }
    · rw [List.map_append, List.map_singleton, firstKnown_append, ← h.name]
      exact adoptNames_name p.toSignature o.toSignature
    · rw [List.map_append, List.map_singleton, firstKnown_append, ← h.returnType]
      exact adoptReturnType_eq p.returnType o.returnType

end FirstKnown

structure Sighting where
  observation : Observation
  className : String
  slotIndex : Nat

def Prototype.enrichAll (p : Prototype) (sightings : List Sighting) : Prototype :=
  sightings.foldl (fun p s => (p.enrich s.observation s.className s.slotIndex).prototype) p

def Sighting.told (sightings : List Sighting) : List Signature :=
  sightings.flatMap fun s => s.observation.told

/-- The list of what was told grows at its end, as the prototype goes on. -/
theorem FirstKnown.enrichAll {told : List Signature} {p : Prototype}
    (hg : Gathers told p.toSignature) (h : FirstKnown told p.toSignature)
    (sightings : List Sighting) :
    FirstKnown (told ++ Sighting.told sightings) (p.enrichAll sightings).toSignature := by
  induction sightings generalizing told p with
  | nil => simpa [Sighting.told, Prototype.enrichAll] using h
  | cons s rest ih =>
    have hrest := ih (hg.enrich s.observation s.className s.slotIndex)
      (h.enrich hg s.observation s.className s.slotIndex)
    rwa [List.append_assoc] at hrest

theorem Prototype.enrichAll_origin (p : Prototype) (sightings : List Sighting) :
    (p.enrichAll sightings).origin = p.origin := by
  induction sightings generalizing p with
  | nil => rfl
  | cons s rest ih =>
    exact (ih _).trans (p.enrich_origin s.observation s.className s.slotIndex)

/-- After any observations by any classes, every field of a prototype holds what was known first of
the prototype itself and of the observations with a body. Its number, declaring class and slot
stay. -/
theorem firstKnown_enrichAll (p : Prototype) (sightings : List Sighting) :
    FirstKnown (p.toSignature :: Sighting.told sightings) (p.enrichAll sightings).toSignature ∧
      (p.enrichAll sightings).origin = p.origin := by
  have hstart := FirstKnown.singleton p.toSignature
  exact ⟨hstart.enrichAll (Gathers.singleton p.toSignature) sightings,
    p.enrichAll_origin sightings⟩

/-- The symbol is older than the name, and the last parameter list is too long to count. -/
example : (Prototype.enrichAll ⟨Signature.unknown, ⟨0⟩, 2, "Device"⟩
    [⟨{ Observation.concrete 2 "" with mangledName := "_ZN4Disk4readEv" }, "Disk", 2⟩,
      ⟨{ Observation.concrete 2 "read" with
          mangledName := "_ZN4Tape4readEv"
          parameters := [Param.unknown, Param.named "int" "n"] }, "Tape", 2⟩,
      ⟨{ Observation.concrete 2 "load" with
          parameters := [Param.ofType "char", Param.ofType "bool"] }, "Drum", 2⟩,
      ⟨{ Observation.concrete 2 "load" with
          parameters := [Param.ofType "a", Param.ofType "b", Param.ofType "c"] }, "Card", 2⟩]
    ).toSignature =
      ⟨"read", "_ZN4Disk4readEv", "???", [Param.ofType "char", Param.named "int" "n"]⟩ := by
  decide

end VtableMerge
