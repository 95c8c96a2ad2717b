import VtableMerge.Proofs.Contributions

/-!
What the absence of conflicts says. Names and numbers of parameters are compared, so without a
conflict all names and all lengths agree. Types are not compared: of types that differ the first
known one stays, silently.
-/
namespace VtableMerge

def firstKnown (blank : String) (texts : List String) : String :=
  (texts.find? fun t => t != blank).getD blank

def Params.typesAt (lists : List Params) (j : Nat) : List String :=
  lists.filterMap fun l => l.typeAt? j

/-- A name that no other name opposed. Labels tell nothing, and destructors differ freely. -/
structure UnopposedName (names : List String) (name : String) : Prop where
  blank : name = "" → ∀ n ∈ names, n = ""
  agrees : ∀ n ∈ names, isUnnamed n = false →
    name = n ∨ isDestructorName name = true ∨ isDestructorName n = true

structure UnopposedParams (lists : List Params) (params : Params) : Prop where
  blank : params.isUnknown = true → ∀ l ∈ lists, l.isUnknown = true
  length_eq : ∀ l ∈ lists, l.isUnknown = false → l.length = params.length
  type_eq : ∀ j type, params.typeAt? j = some type →
    type = firstKnown unknownType (Params.typesAt lists j)

/-- A signature that took in others in their order, none of which was in conflict with it. -/
structure Unopposed (told : List Signature) (known : Signature) : Prop where
  name : UnopposedName (told.map Signature.name) known.name
  returnType : known.returnType = firstKnown unknownType (told.map Signature.returnType)
  parameters : UnopposedParams (told.map Signature.parameters) known.parameters

section FirstKnown
variable {blank : String} {texts : List String}

theorem firstKnown_eq_blank_iff : firstKnown blank texts = blank ↔ ∀ t ∈ texts, t = blank := by
  unfold firstKnown
  cases hfound : texts.find? fun t => t != blank with
  | none => simpa using hfound
  | some t =>
    have hne : t ≠ blank := by simpa using List.find?_some hfound
    refine iff_of_false hne fun hall => hne (hall t (List.mem_of_find?_eq_some hfound))

theorem firstKnown_append (seen : String) : firstKnown blank (texts ++ [seen]) =
    if firstKnown blank texts = blank then seen else firstKnown blank texts := by
  split
  · next hblank =>
    have hnone : (texts.find? fun t => t != blank) = none := by
      simpa using firstKnown_eq_blank_iff.mp hblank
    by_cases hseen : seen = blank <;> simp [firstKnown, List.find?_append, hnone, hseen]
  · next hknown =>
    unfold firstKnown at hknown ⊢
    cases hfound : texts.find? fun t => t != blank with
    | none => simp [hfound] at hknown
    | some t => simp [List.find?_append, hfound]

end FirstKnown

namespace UnopposedName
variable {names : List String} {name : String}

theorem append (h : UnopposedName names name) {seen : String}
    (hnone : namesConflict name seen = false) :
    UnopposedName (names ++ [seen]) (if name = "" then seen else name) := by
  by_cases hblank : name = ""
  · have hall := h.blank hblank
    have hcases : ∀ n ∈ names ++ [seen], n = "" ∨ n = seen := fun n hn =>
      (List.mem_append.mp hn).imp (hall n) List.mem_singleton.mp
    rw [if_pos hblank]
    constructor
    · rintro rfl n hn
      exact (hcases n hn).elim id id
    · intro n hn hnamed
      rcases hcases n hn with rfl | rfl
      · cases hnamed
      · exact Or.inl rfl
  · rw [if_neg hblank]
    refine ⟨fun hno => absurd hno hblank, fun n hn hnamed => ?_⟩
    rcases List.mem_append.mp hn with hn | hn
    · exact h.agrees n hn hnamed
    · obtain rfl := List.mem_singleton.mp hn
      by_contra hopposed
      simp only [not_or, Bool.not_eq_true] at hopposed
      simp [namesConflict, hblank, hopposed, hnamed] at hnone

end UnopposedName

namespace UnopposedParams
variable {lists : List Params} {params seen : Params}

theorem typesAt_append (lists : List Params) (seen : Params) (j : Nat) :
    Params.typesAt (lists ++ [seen]) j = Params.typesAt lists j ++ (seen.typeAt? j).toList := by
  rw [Params.typesAt, List.filterMap_append]
  cases htype : seen.typeAt? j <;> simp [Params.typesAt, htype]

/-- Placeholders know no type. -/
theorem types_of_blank (hall : ∀ l ∈ lists, l.isUnknown = true) (j : Nat) :
    firstKnown unknownType (Params.typesAt lists j) = unknownType := by
  rw [firstKnown_eq_blank_iff]
  intro type hmem
  obtain ⟨l, hl, htype⟩ := List.mem_filterMap.mp hmem
  rw [Params.typeAt?_of_isUnknown (hall l hl) (Params.lt_length_of_typeAt? htype)] at htype
  exact (Option.some.inj htype).symm

/-- A placeholder gives way to any list. -/
theorem append_of_isUnknown (h : UnopposedParams lists params)
    (hparams : params.isUnknown = true) (seen : Params) :
    UnopposedParams (lists ++ [seen]) seen := by
  have hall := h.blank hparams
  have hcases : ∀ l ∈ lists ++ [seen], l.isUnknown = true ∨ l = seen := fun l hl =>
    (List.mem_append.mp hl).imp (hall l) List.mem_singleton.mp
  constructor
  · intro hseen l hl
    rcases hcases l hl with hl | rfl
    · exact hl
    · exact hseen
  · intro l hl hknown
    rcases hcases l hl with hl | rfl
    · rw [hl] at hknown
      cases hknown
    · rfl
  · intro j type htype
    rw [typesAt_append, htype, Option.toList_some, firstKnown_append, types_of_blank hall,
      if_pos rfl]

/-- A placeholder changes nothing. -/
theorem append_placeholder (h : UnopposedParams lists params)
    (hparams : params.isUnknown = false) (hseen : seen.isUnknown = true) :
    UnopposedParams (lists ++ [seen]) params := by
  constructor
  · intro hno
    rw [hparams] at hno
    cases hno
  · intro l hl hknown
    rcases List.mem_append.mp hl with hl | hl
    · exact h.length_eq l hl hknown
    · rw [List.mem_singleton.mp hl, hseen] at hknown
      cases hknown
  · intro j type htype
    rw [h.type_eq j type htype, typesAt_append]
    cases hother : seen.typeAt? j with
    | none => rw [Option.toList_none, List.append_nil]
    | some other =>
      have hunknown := Params.typeAt?_of_isUnknown hseen (Params.lt_length_of_typeAt? hother)
      obtain rfl : unknownType = other := Option.some.inj (hunknown.symm.trans hother)
      rw [Option.toList_some, firstKnown_append]
      split
      · next hblank => exact hblank
      · rfl

/-- Lists of one length complete each other. -/
theorem append_fillTypes (h : UnopposedParams lists params)
    (hparams : params.isUnknown = false) (hlength : params.length = seen.length) :
    UnopposedParams (lists ++ [seen]) (fillTypes params seen).1 := by
  have hfilled := fillTypes_length params seen
  constructor
  · intro hno
    rw [fillTypes_isUnknown hlength hparams] at hno
    cases hno
  · intro l hl hknown
    rw [hfilled]
    rcases List.mem_append.mp hl with hl | hl
    · exact h.length_eq l hl hknown
    · rw [List.mem_singleton.mp hl, hlength]
  · intro j type htype
    have hj := Params.lt_length_of_typeAt? htype
    rw [hfilled] at hj
    obtain ⟨p, hp⟩ := Params.exists_typeAt? hj
    obtain ⟨q, hq⟩ := Params.exists_typeAt? (hlength ▸ hj)
    rw [fillTypes_typeAt? hlength hp hq, Option.some.injEq] at htype
    rw [typesAt_append, hq, Option.toList_some, firstKnown_append, ← h.type_eq j p hp, htype]

theorem append (h : UnopposedParams lists params)
    (hnone : countsConflict params seen = false) :
    UnopposedParams (lists ++ [seen]) (adoptParameters params seen).1 := by
  unfold adoptParameters
  split
  · next hparams => exact h.append_of_isUnknown hparams seen
  · next hparams =>
    have hparams : params.isUnknown = false := by simpa using hparams
    split
    · next hseen => exact h.append_placeholder hparams hseen
    · next hseen =>
      have hlength : params.length = seen.length := by
        simpa [countsConflict, hparams, hseen] using hnone
      rw [if_neg (by simpa using hlength)]
      exact h.append_fillTypes hparams hlength

end UnopposedParams

namespace Unopposed
variable {told : List Signature} {known : Signature}

theorem nil : Unopposed [] Signature.unknown where
  name := ⟨by simp, by simp⟩
  returnType := rfl
  parameters := {
    blank := by simp
    length_eq := by simp
    type_eq := fun j type htype => by
      have hplaceholder : Params.unknown.isUnknown = true := rfl
      have hunknown := Params.typeAt?_of_isUnknown hplaceholder
        (Params.lt_length_of_typeAt? htype)
      exact Option.some.inj (htype.symm.trans hunknown) }

theorem singleton (s : Signature) : Unopposed [s] s where
  name := ⟨by simp, by simp⟩
  returnType := ((@firstKnown_append unknownType [] s.returnType).trans (if_pos rfl)).symm
  parameters := nil.parameters.append_of_isUnknown rfl s.parameters

/-- What a class tells about a slot that it declares. -/
theorem ofObservation (o : Observation) : Unopposed o.told o.signature := by
  unfold Observation.told Observation.signature
  split
  · exact nil
  · exact singleton o.toSignature

/-- Enrichment without a conflict. -/
theorem enrich {p : Prototype} (h : Unopposed told p.toSignature) {o : Observation}
    {className : String} {slotIndex : Nat}
    (hnone : (p.enrich o className slotIndex).conflicts = []) :
    Unopposed (told ++ o.told) (p.enrich o className slotIndex).prototype.toSignature := by
  unfold Prototype.enrich at hnone ⊢
  unfold Observation.told
  split at hnone
  · next hpure => simpa [hpure] using h
  · next hbody =>
    simp only [List.append_eq_nil_iff, ite_eq_right_iff, List.cons_ne_nil, imp_false,
      Bool.not_eq_true] at hnone
    have hname := h.name.append hnone.1
    have hparams := h.parameters.append hnone.2
    rw [← adoptNames_name p.toSignature o.toSignature] at hname
    rw [if_neg hbody, if_neg hbody]
    refine {
      name := by simpa using hname
      returnType := ?_
      parameters := by simpa using hparams }
    rw [List.map_append, List.map_singleton, firstKnown_append, ← h.returnType]
    exact adoptReturnType_eq p.returnType o.returnType

end Unopposed

namespace Merge
variable {h : Hierarchy} {store : ObservationStore} {s : State} {slotIndex : Nat}

section Folding

/-- A fold only adds conflicts. -/
theorem foldl_enrichBy_conflicts_prefix (folded : Prototype × Diagnostics)
    (names : List String) : folded.2 <+: (names.foldl (enrichBy store slotIndex) folded).2 := by
  induction names generalizing folded with
  | nil => exact List.prefix_refl _
  | cons name names ih =>
    refine List.IsPrefix.trans ?_ (ih (enrichBy store slotIndex folded name))
    rw [enrichBy_eq]
    exact List.prefix_append _ _

theorem category_of_mem_enrich_conflicts {p : Prototype} {o : Observation} {className : String}
    {d : Diagnostic} (hd : d ∈ (p.enrich o className slotIndex).conflicts) :
    d.category = .conflict := by
  obtain ⟨q, hsub⟩ := p.enrich_conflicts_sublist o className slotIndex
  rcases List.mem_pair.mp (hsub.subset hd) with rfl | rfl <;> rfl

/-- All that a fold reports is a conflict. -/
theorem category_of_mem_foldl_enrichBy {folded : Prototype × Diagnostics} {names : List String}
    (hfolded : ∀ d ∈ folded.2, d.category = .conflict) :
    ∀ d ∈ (names.foldl (enrichBy store slotIndex) folded).2, d.category = .conflict := by
  induction names generalizing folded with
  | nil => exact hfolded
  | cons name names ih =>
    refine ih fun d hd => ?_
    rw [enrichBy] at hd
    split at hd
    · exact hfolded d hd
    · rcases List.mem_append.mp hd with hd | hd
      · exact hfolded d hd
      · exact category_of_mem_enrich_conflicts hd

/-- A fold without conflicts takes in what all its classes tell, unopposed. -/
theorem unopposed_foldl_enrichBy {told : List Signature} {folded : Prototype × Diagnostics}
    (hfolded : Unopposed told folded.1.toSignature) {names : List String}
    (hnone : (names.foldl (enrichBy store slotIndex) folded).2 = []) :
    Unopposed (told ++ names.flatMap (toldAt store slotIndex))
      (names.foldl (enrichBy store slotIndex) folded).1.toSignature := by
  induction names generalizing told folded with
  | nil => simpa using hfolded
  | cons name names ih =>
    rw [List.flatMap_cons, ← List.append_assoc, List.foldl_cons]
    refine ih ?_ hnone
    have hstep : (enrichBy store slotIndex folded name).2 = [] :=
      List.prefix_nil.mp (hnone ▸ foldl_enrichBy_conflicts_prefix _ names)
    unfold toldAt enrichBy at *
    cases ho : store.slot? name slotIndex with
    | none => rwa [List.append_nil]
    | some o =>
      rw [ho] at hstep
      exact hfolded.enrich (List.append_eq_nil_iff.mp hstep).2

end Folding

def toldInOrder (h : Hierarchy) (store : ObservationStore) (s : State) (order : List String)
    (p : Prototype) : List Signature :=
  (p.declaringClass :: contributors h s order p.declaringClass).flatMap
    (toldAt store p.slotIndex)

theorem unopposed_of_foldsInto {order : List String} (hf : FoldsInto h store s order)
    (hnone : ∀ d ∈ s.diagnostics, d.category ≠ .conflict) {p : Prototype}
    (hp : p ∈ s.table.prototypes) :
    Unopposed (toldInOrder h store s order p) p.toSignature := by
  obtain ⟨o, conflicts, ho, hend⟩ := hf.exists_fold hp
  let start : Prototype × Diagnostics :=
    (Prototype.declared p.id p.declaringClass p.slotIndex o, [])
  have hstart : Unopposed o.told start.1.toSignature := Unopposed.ofObservation o
  have hrefold : refoldConflicts h store s order p = conflicts := by
    rw [refoldConflicts, refold, ho, Option.map_some, hend]
    rfl
  -- What the fold reports would be among the findings of the merge.
  have hquiet : conflicts = [] := by
    refine List.eq_nil_iff_forall_not_mem.mpr fun d hd => ?_
    have hcategory := @category_of_mem_foldl_enrichBy store p.slotIndex start
      (contributors h s order p.declaringClass) (by simp [start]) d (by rwa [hend])
    have hreported : d ∈ s.diagnostics.conflicts :=
      hf.conflicts.mem_iff.mpr (List.mem_flatMap.mpr ⟨p, hp, hrefold ▸ hd⟩)
    exact hnone d (List.mem_filter.mp hreported).1 hcategory
  have hfold := @unopposed_foldl_enrichBy store p.slotIndex o.told start hstart
    (contributors h s order p.declaringClass) (by rw [hend, hquiet])
  rw [hend] at hfold
  rwa [toldInOrder, List.flatMap_cons, toldAt, ho]

/-- Let a merge report no conflict. Then all that was folded into a prototype agrees with it on
the name and on the number of parameters, and its return type and each of its parameter types is
the first known one that was folded in, as long as there are numbers for all prototypes. -/
theorem unopposed_resolveAll (h : Hierarchy) (store : ObservationStore) (names : List String)
    (hbound : (resolveAll h store names).table.size < 2 ^ 32)
    (hnone : ∀ d ∈ (finish h (resolveAll h store names)).diagnostics, d.category ≠ .conflict) :
    ∃ order, FoldsInto h store (resolveAll h store names) order ∧
      ∀ p ∈ (finish h (resolveAll h store names)).prototypes.prototypes,
        Unopposed (toldInOrder h store (resolveAll h store names) order p) p.toSignature := by
  have hf := foldsInto_of_leads (@leads_resolveAll h store names) hbound
  exact ⟨_, hf, fun p hp => unopposed_of_foldsInto hf hnone hp⟩

/-- Observations of the small forest with one name and one number of parameters, but types that
differ. -/
def differingStore : ObservationStore :=
  ⟨[("Device", ⟨"a", [{ Observation.concrete 0 "read" with
        returnType := "int"
        parameters := [Param.ofType "int", Param.unknown] }]⟩),
    ("Disk", ⟨"a", [{ Observation.concrete 0 "read" with
        returnType := "bool"
        parameters := [Param.ofType "char", Param.ofType "bool"] }]⟩)]⟩

theorem unopposed_resolveAll_sample :
    (resolveAll sampleHierarchy differingStore
        (sampleHierarchy.nodes.map ClassNode.name)).table.size < 2 ^ 32 ∧
      (∀ d ∈ (finish sampleHierarchy (resolveAll sampleHierarchy differingStore
        (sampleHierarchy.nodes.map ClassNode.name))).diagnostics, d.category ≠ .conflict) ∧
      ∃ order, FoldsInto sampleHierarchy differingStore (resolveAll sampleHierarchy
          differingStore (sampleHierarchy.nodes.map ClassNode.name)) order ∧
        ∀ p ∈ (finish sampleHierarchy (resolveAll sampleHierarchy differingStore
            (sampleHierarchy.nodes.map ClassNode.name))).prototypes.prototypes,
          Unopposed (toldInOrder sampleHierarchy differingStore (resolveAll sampleHierarchy
            differingStore (sampleHierarchy.nodes.map ClassNode.name)) order p) p.toSignature :=
  ⟨by decide, by decide, unopposed_resolveAll sampleHierarchy differingStore _ (by decide)
    (by decide)⟩

/-- Types that differ are no conflict: nothing is reported, and the prototype that Disk inherits
keeps the return type and the type of the first parameter of Device, not those that Disk
observes. -/
theorem differing_types_unreported :
    (run sampleHierarchy differingStore).diagnostics = [] ∧
      ((resolveAll sampleHierarchy differingStore
        (sampleHierarchy.nodes.map ClassNode.name)).vtable? "Disk").map (List.map VtableSlot.id) =
          some [ProtoId.ofIndex 0] ∧
      (differingStore.slot? "Disk" 0).map (fun o => (o.isPureVirtual, o.returnType,
        o.parameters.map Param.type)) = some (false, "bool", ["char", "bool"]) ∧
      ((run sampleHierarchy differingStore).prototypes.get? (ProtoId.ofIndex 0)).map
        (fun p => (p.returnType, p.parameters.map Param.type)) =
          some ("int", ["int", "bool"]) := by
  decide

end Merge

end VtableMerge
