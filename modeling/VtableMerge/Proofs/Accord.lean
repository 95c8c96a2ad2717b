import VtableMerge.Proofs.Gathering

/-!
Signatures that agree wherever both know something. A signature gathered from such signatures has
every text that any of them knows, so the order in which it took them in does not show, and no
observation among them is ever in conflict with it.
-/
namespace VtableMerge

def Params.Accords (ps qs : Params) : Prop :=
  ps.length = qs.length ∧ ∀ j < ps.length, ∀ p ∈ ps.typeAt? j, ∀ q ∈ qs.typeAt? j,
    p ≠ unknownType → q ≠ unknownType → p = q

instance (ps qs : Params) : Decidable (ps.Accords qs) :=
  inferInstanceAs (Decidable (_ ∧ ∀ j < ps.length, ∀ p ∈ ps.typeAt? j, ∀ q ∈ qs.typeAt? j,
    p ≠ unknownType → q ≠ unknownType → p = q))

/-- Signatures that agree where both know something. A placeholder list knows nothing. -/
def Signature.Accords (a b : Signature) : Prop :=
  (a.name ≠ "" → b.name ≠ "" → a.name = b.name) ∧
  (a.returnType ≠ unknownType → b.returnType ≠ unknownType → a.returnType = b.returnType) ∧
  (a.parameters.isUnknown = false → b.parameters.isUnknown = false →
    a.parameters.Accords b.parameters)

instance (a b : Signature) : Decidable (a.Accords b) :=
  inferInstanceAs (Decidable ((_ → _ → _) ∧ (_ → _ → _) ∧ (_ → _ → _)))

structure Signature.Covers (known told : Signature) : Prop where
  name : told.name ≠ "" → known.name = told.name
  returnType : told.returnType ≠ unknownType → known.returnType = told.returnType
  length : told.parameters.isUnknown = false →
    known.parameters.length = told.parameters.length
  type : told.parameters.isUnknown = false → ∀ j type, told.parameters.typeAt? j = some type →
    type ≠ unknownType → known.parameters.typeAt? j = some type

def Signature.outline (s : Signature) : String × String × List String :=
  (s.name, s.returnType, s.parameters.map Param.type)

theorem Params.getElem?_map_type (params : Params) (j : Nat) :
    (params.map Param.type)[j]? = params.typeAt? j := List.getElem?_map ..

theorem Params.isUnknown_eq_false_of_typeAt? {params : Params} {j : Nat} {type : String}
    (htype : params.typeAt? j = some type) (hknown : type ≠ unknownType) :
    params.isUnknown = false := by
  rw [Bool.eq_false_iff]
  intro hunknown
  rw [Params.typeAt?_of_isUnknown hunknown (Params.lt_length_of_typeAt? htype),
    Option.some.injEq] at htype
  exact hknown htype.symm

/-- Placeholders show the same types, with or without a parameter name. -/
theorem Params.map_type_of_isUnknown {params : Params} (h : params.isUnknown = true) :
    params.map Param.type = [unknownType] := by
  unfold isUnknown at h
  split at h
  · simpa [Param.isUnknown] using h
  · cases h

namespace GathersText
variable {blank text other : String} {texts : List String}

/-- Where all known texts are the same, the gathered one is. -/
theorem eq_of_mem (h : GathersText blank texts text)
    (haccord : ∀ a ∈ texts, ∀ b ∈ texts, a ≠ blank → b ≠ blank → a = b) {t : String}
    (ht : t ∈ texts) (hne : t ≠ blank) : text = t := by
  have hknown : text ≠ blank := fun hblank => hne (h.blank_iff.mp hblank t ht)
  exact haccord text (h.mem_of_ne_blank hknown) t ht hknown hne

theorem eq_of_accord (h : GathersText blank texts text) (h' : GathersText blank texts other)
    (haccord : ∀ a ∈ texts, ∀ b ∈ texts, a ≠ blank → b ≠ blank → a = b) : text = other := by
  by_cases hblank : text = blank
  · rw [hblank]
    exact (h'.blank_iff.mpr (h.blank_iff.mp hblank)).symm
  · exact (h'.eq_of_mem haccord (h.mem_of_ne_blank hblank) hblank).symm

end GathersText

namespace GathersParams
variable {lists : List Params} {params other l : Params}

theorem isUnknown_eq_false_of_mem (h : GathersParams lists params) (hl : l ∈ lists)
    (hknown : l.isUnknown = false) : params.isUnknown = false := by
  rw [Bool.eq_false_iff, Ne, h.isUnknown_iff]
  intro hall
  rw [hall l hl] at hknown
  cases hknown

section Accord
variable (haccord : ∀ a ∈ lists, ∀ b ∈ lists, a.isUnknown = false → b.isUnknown = false →
  a.Accords b)
include haccord

theorem length_eq_of_mem (h : GathersParams lists params) (hl : l ∈ lists)
    (hknown : l.isUnknown = false) : params.length = l.length := by
  obtain ⟨a, ha, htold, hsame⟩ := h.exists_length (h.isUnknown_eq_false_of_mem hl hknown)
  exact hsame.symm.trans (haccord a ha l hl htold hknown).1

theorem typeAt?_of_mem (h : GathersParams lists params) (hl : l ∈ lists)
    (hknown : l.isUnknown = false) {j : Nat} {type : String} (htype : l.typeAt? j = some type)
    (hne : type ≠ unknownType) : params.typeAt? j = some type := by
  have hsame := h.length_eq_of_mem haccord hl hknown
  obtain ⟨own, hown⟩ : ∃ own, params.typeAt? j = some own :=
    Params.exists_typeAt? (hsame ▸ Params.lt_length_of_typeAt? htype)
  -- The other list knows a type here, so the gathered one does.
  have hown_ne : own ≠ unknownType := by
    intro hunknown
    have hparams := h.isUnknown_eq_false_of_mem hl hknown
    have hall := (h.type_eq_unknown_iff hparams j own hown).mp hunknown l hl hsame.symm
    rw [htype, Option.some.injEq] at hall
    exact hne hall
  obtain ⟨a, ha, -, htold⟩ := h.exists_type j own hown hown_ne
  have hsure := Params.isUnknown_eq_false_of_typeAt? htold hown_ne
  have heq := (haccord a ha l hl hsure hknown).2 j (Params.lt_length_of_typeAt? htold) own htold
    type htype hown_ne hne
  rw [hown, heq]

/-- Two lists gathered from the same agreeing ones show the same types. -/
theorem map_type_eq (h : GathersParams lists params) (h' : GathersParams lists other) :
    params.map Param.type = other.map Param.type := by
  by_cases hunknown : params.isUnknown = true
  · have hother := h'.isUnknown_iff.mpr (h.isUnknown_iff.mp hunknown)
    rw [Params.map_type_of_isUnknown hunknown, Params.map_type_of_isUnknown hother]
  · have hknown : params.isUnknown = false := by simpa using hunknown
    obtain ⟨l, hl, htold, hsame⟩ := h.exists_length hknown
    have hother := h'.isUnknown_eq_false_of_mem hl htold
    have hlength : params.length = other.length := by
      rw [← hsame, h'.length_eq_of_mem haccord hl htold]
    apply List.ext_getElem?
    intro j
    rw [Params.getElem?_map_type, Params.getElem?_map_type]
    cases htype : params.typeAt? j with
    | none =>
      rw [Params.typeAt?_eq_none_iff] at htype
      exact (Params.typeAt?_eq_none_iff.mpr (hlength ▸ htype)).symm
    | some type =>
      by_cases hblank : type = unknownType
      · obtain ⟨own, hown⟩ : ∃ own, other.typeAt? j = some own :=
          Params.exists_typeAt? (hlength ▸ Params.lt_length_of_typeAt? htype)
        have hall := (h.type_eq_unknown_iff hknown j type htype).mp hblank
        rw [hlength] at hall
        rw [hown, hblank, (h'.type_eq_unknown_iff hother j own hown).mpr hall]
      · obtain ⟨a, ha, -, htype'⟩ := h.exists_type j type htype hblank
        have hsure := Params.isUnknown_eq_false_of_typeAt? htype' hblank
        exact (h'.typeAt?_of_mem haccord ha hsure htype' hblank).symm

end Accord

end GathersParams

namespace Gathers
variable {told : List Signature} {known other : Signature}

section Accord
variable (haccord : ∀ a ∈ told, ∀ b ∈ told, a.Accords b)
include haccord

theorem names_accord : ∀ a ∈ told.map Signature.name, ∀ b ∈ told.map Signature.name,
    a ≠ "" → b ≠ "" → a = b := by
  simp only [List.forall_mem_map]
  exact fun a ha b hb => (haccord a ha b hb).1

theorem returnTypes_accord : ∀ a ∈ told.map Signature.returnType,
    ∀ b ∈ told.map Signature.returnType, a ≠ unknownType → b ≠ unknownType → a = b := by
  simp only [List.forall_mem_map]
  exact fun a ha b hb => (haccord a ha b hb).2.1

theorem parameters_accord : ∀ a ∈ told.map Signature.parameters,
    ∀ b ∈ told.map Signature.parameters, a.isUnknown = false → b.isUnknown = false →
      a.Accords b := by
  simp only [List.forall_mem_map]
  exact fun a ha b hb => (haccord a ha b hb).2.2

/-- A signature gathered from agreeing ones has what each of them knows. -/
theorem covers (h : Gathers told known) {s : Signature} (hs : s ∈ told) : known.Covers s where
  name := h.name.eq_of_mem (names_accord haccord) (List.mem_map_of_mem hs)
  returnType := h.returnType.eq_of_mem (returnTypes_accord haccord) (List.mem_map_of_mem hs)
  length := h.parameters.length_eq_of_mem (parameters_accord haccord) (List.mem_map_of_mem hs)
  type hknown _ _ := h.parameters.typeAt?_of_mem (parameters_accord haccord)
    (List.mem_map_of_mem hs) hknown

/-- Two signatures gathered from the same agreeing ones show the same. -/
theorem outline_eq (h : Gathers told known) (h' : Gathers told other) :
    known.outline = other.outline := by
  rw [Signature.outline, Signature.outline, h.name.eq_of_accord h'.name (names_accord haccord),
    h.returnType.eq_of_accord h'.returnType (returnTypes_accord haccord),
    h.parameters.map_type_eq (parameters_accord haccord) h'.parameters]

end Accord

/-- An observation that agrees with all that was told is not in conflict. -/
theorem enrich_conflicts_eq_nil {p : Prototype} (h : Gathers told p.toSignature)
    {o : Observation} (haccord : ∀ a ∈ told, ∀ b ∈ o.told, a.Accords b) (className : String)
    (slotIndex : Nat) : (p.enrich o className slotIndex).conflicts = [] := by
  unfold Prototype.enrich
  split
  · rfl
  · next hbody =>
    have hself : o.toSignature ∈ o.told := by
      rw [Observation.told, if_neg hbody]
      exact List.mem_singleton_self _
    have hnames : namesConflict p.name o.name = false := by
      rw [Bool.eq_false_iff]
      intro hconflict
      simp only [namesConflict, isUnnamed, Bool.and_eq_true, Bool.not_eq_true',
        String.isEmpty_eq_false_iff, bne_iff_ne, Bool.or_eq_false_iff] at hconflict
      obtain ⟨⟨⟨⟨hknown, hne⟩, -⟩, -⟩, hseen, -⟩ := hconflict
      obtain ⟨a, ha, heq⟩ := List.mem_map.mp (h.name.mem_of_ne_blank hknown)
      exact hne (heq ▸ (haccord a ha _ hself).1 (heq ▸ hknown) hseen)
    have hcounts : countsConflict p.parameters o.parameters = false := by
      rw [Bool.eq_false_iff]
      intro hconflict
      simp only [countsConflict, Bool.and_eq_true, Bool.not_eq_true', bne_iff_ne] at hconflict
      obtain ⟨⟨hknown, hseen⟩, hne⟩ := hconflict
      obtain ⟨l, hl, htold, hsame⟩ := h.parameters.exists_length hknown
      obtain ⟨a, ha, rfl⟩ := List.mem_map.mp hl
      exact hne (hsame ▸ ((haccord a ha _ hself).2.2 htold hseen).1)
    simp only [hnames, hcounts, Bool.false_eq_true, if_false, List.append_nil]

end Gathers

end VtableMerge
