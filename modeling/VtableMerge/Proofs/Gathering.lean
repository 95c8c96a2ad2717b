import VtableMerge.Prototype.Enrich

/-!
What a signature knows after it took in other signatures one after the other. Nothing they tell
is missed: a part stays unknown only if all of them leave it open. Nothing is made up: every
known part is told by one of them. This holds whatever they disagree on.
-/
namespace VtableMerge

/-- A text gathered from others is blank only if they all are, and otherwise one of them. -/
structure GathersText (blank : String) (texts : List String) (text : String) : Prop where
  blank_iff : text = blank ↔ ∀ t ∈ texts, t = blank
  mem_of_ne_blank : text ≠ blank → text ∈ texts

def Params.typeAt? (params : Params) (j : Nat) : Option String := params[j]?.map Param.type

/-- A parameter list gathered from others. Placeholders tell nothing, an empty list gives way to
a longer one, and lists of one length complete each other position by position. -/
structure GathersParams (lists : List Params) (params : Params) : Prop where
  isUnknown_iff : params.isUnknown = true ↔ ∀ l ∈ lists, l.isUnknown = true
  eq_nil_iff : params = [] ↔ [] ∈ lists ∧ ∀ l ∈ lists, l = [] ∨ l.isUnknown = true
  exists_length : params.isUnknown = false →
    ∃ l ∈ lists, l.isUnknown = false ∧ l.length = params.length
  type_eq_unknown_iff : params.isUnknown = false → ∀ j type, params.typeAt? j = some type →
    (type = unknownType ↔
      ∀ l ∈ lists, l.length = params.length → l.typeAt? j = some unknownType)
  exists_type : ∀ j type, params.typeAt? j = some type → type ≠ unknownType →
    ∃ l ∈ lists, l.length = params.length ∧ l.typeAt? j = some type

structure Gathers (told : List Signature) (known : Signature) : Prop where
  name : GathersText "" (told.map Signature.name) known.name
  mangledName : known.mangledName ≠ "" → known.mangledName ∈ told.map Signature.mangledName
  returnType : GathersText unknownType (told.map Signature.returnType) known.returnType
  parameters : GathersParams (told.map Signature.parameters) known.parameters

namespace GathersText
variable {blank text : String} {texts : List String}

theorem nil : GathersText blank [] blank := by
  constructor <;> simp

theorem singleton (text : String) : GathersText blank [text] text := by
  constructor <;> simp

/-- A text takes in another one while it is blank. -/
theorem append (h : GathersText blank texts text) (seen : String) :
    GathersText blank (texts ++ [seen]) (if text = blank then seen else text) := by
  by_cases hblank : text = blank
  · have hall := h.blank_iff.mp hblank
    rw [if_pos hblank]
    constructor
    · constructor
      · rintro rfl t ht
        rcases List.mem_append.mp ht with ht | ht
        · exact hall t ht
        · exact List.mem_singleton.mp ht
      · exact fun hseen => hseen seen (by simp)
    · simp
  · rw [if_neg hblank]
    constructor
    · have hnot : ¬ ∀ t ∈ texts ++ [seen], t = blank := fun hall =>
        hblank (h.blank_iff.mpr fun t ht => hall t (List.mem_append_left _ ht))
      exact iff_of_false hblank hnot
    · exact fun hne => List.mem_append_left _ (h.mem_of_ne_blank hne)

theorem congr {texts' : List String} (hmem : ∀ t, t ∈ texts ↔ t ∈ texts')
    (h : GathersText blank texts text) : GathersText blank texts' text := by
  constructor
  · simpa only [hmem] using h.blank_iff
  · simpa only [hmem] using h.mem_of_ne_blank

end GathersText

namespace Params

theorem length_eq_one_of_isUnknown {params : Params} (h : params.isUnknown = true) :
    params.length = 1 := by
  unfold isUnknown at h
  split at h
  · rfl
  · cases h

theorem typeAt?_eq_none_iff {params : Params} {j : Nat} :
    params.typeAt? j = none ↔ params.length ≤ j := by
  simp [typeAt?]

theorem lt_length_of_typeAt? {params : Params} {j : Nat} {type : String}
    (h : params.typeAt? j = some type) : j < params.length := by
  refine Nat.lt_of_not_le fun hle => ?_
  rw [typeAt?_eq_none_iff.mpr hle] at h
  cases h

theorem exists_typeAt? {params : Params} {j : Nat} (hj : j < params.length) :
    ∃ type, params.typeAt? j = some type :=
  ⟨params[j].type, by rw [typeAt?, List.getElem?_eq_getElem hj, Option.map_some]⟩

/-- A placeholder has the unknown type at its only position. -/
theorem typeAt?_of_isUnknown {params : Params} (h : params.isUnknown = true) {j : Nat}
    (hj : j < params.length) : params.typeAt? j = some unknownType := by
  unfold isUnknown at h
  split at h
  · next p =>
    obtain rfl : j = 0 := by simpa using hj
    simpa [typeAt?, Param.isUnknown] using h
  · cases h

/-- A list of one known type is no placeholder. -/
theorem type_ne_unknown_of_length_eq_one {params : Params} (h : params.isUnknown = false)
    (hlength : params.length = 1) {type : String} (htype : params.typeAt? 0 = some type) :
    type ≠ unknownType := by
  obtain ⟨p, rfl⟩ := List.length_eq_one_iff.mp hlength
  obtain rfl : p.type = type := by simpa [typeAt?] using htype
  simpa [isUnknown, Param.isUnknown] using h

end Params

def Param.fill (p q : Param) : Param :=
  if p.isUnknown && !q.isUnknown then { p with type := q.type } else p

theorem Param.fill_type (p q : Param) :
    (p.fill q).type = if p.type = unknownType then q.type else p.type := by
  unfold fill isUnknown
  by_cases hp : p.type = unknownType
  · by_cases hq : q.type = unknownType <;> simp [hp, hq]
  · simp [hp]

theorem fillTypes_eq_zipWith {ps qs : Params} (hlength : ps.length = qs.length) :
    (fillTypes ps qs).1 = List.zipWith Param.fill ps qs := by
  induction ps generalizing qs with
  | nil => simp [fillTypes]
  | cons p ps ih =>
    cases qs with
    | nil => simp at hlength
    | cons q qs =>
      have hrest := ih (Nat.succ.inj hlength)
      simp only [fillTypes, List.zipWith_cons_cons, ← hrest, Param.fill]
      split <;> rfl

theorem fillTypes_length (ps qs : Params) : (fillTypes ps qs).1.length = ps.length := by
  induction ps generalizing qs with
  | nil => simp [fillTypes]
  | cons p ps ih =>
    cases qs with
    | nil => simp [fillTypes]
    | cons q qs =>
      simp only [fillTypes]
      split <;> simp [ih]

theorem fillTypes_typeAt? {ps qs : Params} (hlength : ps.length = qs.length) {j : Nat}
    {p q : String} (hp : ps.typeAt? j = some p) (hq : qs.typeAt? j = some q) :
    (fillTypes ps qs).1.typeAt? j = some (if p = unknownType then q else p) := by
  obtain ⟨a, ha, rfl⟩ := Option.map_eq_some_iff.mp hp
  obtain ⟨b, hb, rfl⟩ := Option.map_eq_some_iff.mp hq
  rw [Params.typeAt?, fillTypes_eq_zipWith hlength, List.getElem?_zipWith_eq_some.mpr
    ⟨a, b, ha, hb, rfl⟩, Option.map_some, Param.fill_type]

theorem fillTypes_isUnknown {ps qs : Params} (hlength : ps.length = qs.length)
    (hps : ps.isUnknown = false) : (fillTypes ps qs).1.isUnknown = false := by
  rw [Bool.eq_false_iff]
  intro hfilled
  have hone : ps.length = 1 := by
    rw [← fillTypes_length ps qs, Params.length_eq_one_of_isUnknown hfilled]
  obtain ⟨p, rfl⟩ := List.length_eq_one_iff.mp hone
  obtain ⟨q, rfl⟩ := List.length_eq_one_iff.mp (hlength.symm.trans hone)
  have hp : p.type ≠ unknownType := Params.type_ne_unknown_of_length_eq_one hps rfl rfl
  have hkept := fillTypes_typeAt? hlength (j := 0) (p := p.type) (q := q.type) rfl rfl
  rw [Params.typeAt?_of_isUnknown hfilled (by rw [fillTypes_length]; exact Nat.one_pos),
    if_neg hp, Option.some.injEq] at hkept
  exact hp hkept.symm

namespace GathersParams
variable {lists : List Params} {params seen : Params}

theorem nil : GathersParams [] Params.unknown where
  isUnknown_iff := by simp [Params.unknown, Params.isUnknown, Param.unknown, Param.ofType,
    Param.isUnknown]
  eq_nil_iff := by simp [Params.unknown]
  exists_length h := by cases h
  type_eq_unknown_iff h := by cases h
  exists_type j type htype hknown := by
    have hj := Params.lt_length_of_typeAt? htype
    have hplaceholder : Params.unknown.isUnknown = true := rfl
    rw [Params.typeAt?_of_isUnknown hplaceholder hj, Option.some.injEq] at htype
    exact absurd htype.symm hknown

/-- While there were placeholders only, the next list is taken as it is. -/
theorem append_of_isUnknown (h : GathersParams lists params) (hparams : params.isUnknown = true)
    (seen : Params) : GathersParams (lists ++ [seen]) seen := by
  have hall := h.isUnknown_iff.mp hparams
  have hmem : ∀ l ∈ lists ++ [seen], l.isUnknown = true ∨ l = seen := by
    intro l hl
    rcases List.mem_append.mp hl with hl | hl
    · exact Or.inl (hall l hl)
    · exact Or.inr (List.mem_singleton.mp hl)
  have hlast : seen ∈ lists ++ [seen] := by simp
  constructor
  · constructor
    · intro hseen l hl
      rcases hmem l hl with hl | rfl
      · exact hl
      · exact hseen
    · exact fun hl => hl seen hlast
  · constructor
    · rintro rfl
      exact ⟨hlast, fun l hl => (hmem l hl).symm⟩
    · rintro ⟨hnil, -⟩
      rcases hmem [] hnil with hno | heq
      · cases hno
      · exact heq.symm
  · exact fun hseen => ⟨seen, hlast, hseen, rfl⟩
  · intro _ j type htype
    constructor
    · rintro rfl l hl hlength
      rcases hmem l hl with hl | rfl
      · exact Params.typeAt?_of_isUnknown hl (hlength ▸ Params.lt_length_of_typeAt? htype)
      · exact htype
    · intro hl
      have hunknown := hl seen hlast rfl
      rw [htype, Option.some.injEq] at hunknown
      exact hunknown
  · exact fun j type htype _ => ⟨seen, hlast, rfl, htype⟩

/-- If something is known, an empty list or a longer one was told. -/
theorem eq_nil_of_forall (h : GathersParams lists params) (hparams : params.isUnknown = false)
    (hall : ∀ l ∈ lists, l = [] ∨ l.isUnknown = true) : params = [] := by
  obtain ⟨l, hl, hknown, -⟩ := h.exists_length hparams
  refine h.eq_nil_iff.mpr ⟨?_, hall⟩
  rcases hall l hl with rfl | hunknown
  · exact hl
  · rw [hknown] at hunknown
    cases hunknown

theorem not_forall_isUnknown (h : GathersParams lists params)
    (hparams : params.isUnknown = false) (seen : Params) :
    ¬ ∀ l ∈ lists ++ [seen], l.isUnknown = true := by
  intro hall
  rw [h.isUnknown_iff.mpr fun l hl => hall l (List.mem_append_left _ hl)] at hparams
  cases hparams

/-- A list that tells nothing new about any position changes nothing. -/
theorem append_of_idle (h : GathersParams lists params) (hparams : params.isUnknown = false)
    (hempty : params = [] → seen = [] ∨ seen.isUnknown = true)
    (htypes : seen.length = params.length → ∀ j, j < params.length →
      seen.typeAt? j = some unknownType) : GathersParams (lists ++ [seen]) params := by
  constructor
  · exact iff_of_false (by simp [hparams]) (h.not_forall_isUnknown hparams seen)
  · constructor
    · intro hnil
      obtain ⟨hmem, hall⟩ := h.eq_nil_iff.mp hnil
      refine ⟨List.mem_append_left _ hmem, fun l hl => ?_⟩
      rcases List.mem_append.mp hl with hl | hl
      · exact hall l hl
      · rw [List.mem_singleton.mp hl]
        exact hempty hnil
    · rintro ⟨-, hall⟩
      exact h.eq_nil_of_forall hparams fun l hl => hall l (List.mem_append_left _ hl)
  · intro _
    obtain ⟨l, hl, hrest⟩ := h.exists_length hparams
    exact ⟨l, List.mem_append_left _ hl, hrest⟩
  · intro _ j type htype
    rw [h.type_eq_unknown_iff hparams j type htype]
    constructor
    · intro hall l hl hlength
      rcases List.mem_append.mp hl with hl | hl
      · exact hall l hl hlength
      · rw [List.mem_singleton.mp hl] at hlength ⊢
        exact htypes hlength j (Params.lt_length_of_typeAt? htype)
    · exact fun hall l hl => hall l (List.mem_append_left _ hl)
  · intro j type htype hknown
    obtain ⟨l, hl, hrest⟩ := h.exists_type j type htype hknown
    exact ⟨l, List.mem_append_left _ hl, hrest⟩

/-- The empty list gives way to a longer one. So far there were only empty lists and placeholders,
and none of these knows a type. -/
theorem append_of_eq_nil (h : GathersParams lists []) (hseen : seen.isUnknown = false)
    (hne : seen ≠ []) : GathersParams (lists ++ [seen]) seen := by
  obtain ⟨-, hall⟩ := h.eq_nil_iff.mp rfl
  have hlast : seen ∈ lists ++ [seen] := by simp
  constructor
  · refine iff_of_false (by simp [hseen]) fun hforall => ?_
    rw [hforall seen hlast] at hseen
    cases hseen
  · refine iff_of_false hne fun hforall => ?_
    rcases hforall.2 seen hlast with hnil | hunknown
    · exact hne hnil
    · rw [hseen] at hunknown
      cases hunknown
  · exact fun _ => ⟨seen, hlast, hseen, rfl⟩
  · intro _ j type htype
    have hj := Params.lt_length_of_typeAt? htype
    constructor
    · rintro rfl l hl hlength
      rcases List.mem_append.mp hl with hl | hl
      · rcases hall l hl with rfl | hunknown
        · rw [← hlength] at hj
          cases hj
        · exact Params.typeAt?_of_isUnknown hunknown (hlength ▸ hj)
      · rwa [List.mem_singleton.mp hl]
    · intro hforall
      have hunknown := hforall seen hlast rfl
      rw [htype, Option.some.injEq] at hunknown
      exact hunknown
  · exact fun j type htype _ => ⟨seen, hlast, rfl, htype⟩

/-- Lists of one length complete each other. -/
theorem append_fillTypes (h : GathersParams lists params) (hparams : params.isUnknown = false)
    (hlength : params.length = seen.length) :
    GathersParams (lists ++ [seen]) (fillTypes params seen).1 := by
  have hfilled := fillTypes_length params seen
  have hcases : ∀ {j type}, (fillTypes params seen).1.typeAt? j = some type →
      ∃ p q, params.typeAt? j = some p ∧ seen.typeAt? j = some q ∧
        type = if p = unknownType then q else p := by
    intro j type htype
    have hj := Params.lt_length_of_typeAt? htype
    rw [hfilled] at hj
    obtain ⟨p, hp⟩ := Params.exists_typeAt? hj
    obtain ⟨q, hq⟩ := Params.exists_typeAt? (hlength ▸ hj)
    rw [fillTypes_typeAt? hlength hp hq, Option.some.injEq] at htype
    exact ⟨p, q, hp, hq, htype.symm⟩
  have hnil : (fillTypes params seen).1 = [] ↔ params = [] := by
    rw [← List.length_eq_zero_iff, hfilled, List.length_eq_zero_iff]
  constructor
  · exact iff_of_false (by simp [fillTypes_isUnknown hlength hparams])
      (h.not_forall_isUnknown hparams seen)
  · rw [hnil]
    constructor
    · intro hempty
      obtain ⟨hmem, hall⟩ := h.eq_nil_iff.mp hempty
      refine ⟨List.mem_append_left _ hmem, fun l hl => ?_⟩
      rcases List.mem_append.mp hl with hl | hl
      · exact hall l hl
      · rw [hempty, List.length_nil] at hlength
        rw [List.mem_singleton.mp hl]
        exact Or.inl (List.length_eq_zero_iff.mp hlength.symm)
    · rintro ⟨-, hall⟩
      exact h.eq_nil_of_forall hparams fun l hl => hall l (List.mem_append_left _ hl)
  · intro _
    obtain ⟨l, hl, hknown, hsame⟩ := h.exists_length hparams
    exact ⟨l, List.mem_append_left _ hl, hknown, hsame.trans hfilled.symm⟩
  · intro _ j type htype
    obtain ⟨p, q, hp, hq, rfl⟩ := hcases htype
    have hknown := h.type_eq_unknown_iff hparams j p hp
    rw [hfilled]
    constructor
    · intro hunknown l hl hsame
      by_cases hpu : p = unknownType
      · rw [if_pos hpu] at hunknown
        rcases List.mem_append.mp hl with hl | hl
        · exact hknown.mp hpu l hl hsame
        · rw [List.mem_singleton.mp hl, hq, hunknown]
      · rw [if_neg hpu] at hunknown
        exact absurd hunknown hpu
    · intro hforall
      have hpu := hknown.mpr fun l hl => hforall l (List.mem_append_left _ hl)
      have hqu := hforall seen (by simp) hlength.symm
      rw [hq, Option.some.injEq] at hqu
      rw [if_pos hpu, hqu]
  · intro j type htype hne
    obtain ⟨p, q, hp, hq, rfl⟩ := hcases htype
    rw [hfilled]
    by_cases hpu : p = unknownType
    · rw [if_pos hpu]
      exact ⟨seen, by simp, hlength.symm, hq⟩
    · rw [if_neg hpu] at hne ⊢
      obtain ⟨l, hl, hrest⟩ := h.exists_type j p hp hne
      exact ⟨l, List.mem_append_left _ hl, hrest⟩

/-- Whatever list comes next, nothing is missed and nothing made up. -/
theorem append (h : GathersParams lists params) (seen : Params) :
    GathersParams (lists ++ [seen]) (adoptParameters params seen).1 := by
  unfold adoptParameters
  split
  · next hparams => exact h.append_of_isUnknown hparams seen
  · next hparams =>
    have hparams : params.isUnknown = false := by simpa using hparams
    split
    · next hseen =>
      exact h.append_of_idle hparams (fun _ => Or.inr hseen) fun hlength j hj =>
        Params.typeAt?_of_isUnknown hseen (hlength.symm ▸ hj)
    · next hseen =>
      have hseen : seen.isUnknown = false := by simpa using hseen
      split
      · next hlength =>
        have hlength : params.length ≠ seen.length := by simpa using hlength
        split
        · next hnil =>
          obtain rfl : params = [] := List.isEmpty_iff.mp hnil
          exact h.append_of_eq_nil hseen fun hno => hlength (by rw [hno])
        · next hne =>
          exact h.append_of_idle hparams (fun hno => absurd (List.isEmpty_iff.mpr hno) hne)
            fun hsame => absurd hsame.symm hlength
      · next hlength => exact h.append_fillTypes hparams (by simpa using hlength)

theorem congr {lists' : List Params} (hmem : ∀ l, l ∈ lists ↔ l ∈ lists')
    (h : GathersParams lists params) : GathersParams lists' params := by
  obtain ⟨hunknown, hnil, hlength, hiff, htype⟩ := h
  simp only [hmem] at hunknown hnil hlength hiff htype
  exact ⟨hunknown, hnil, hlength, hiff, htype⟩

end GathersParams

theorem adoptReturnType_eq (known seen : String) :
    (adoptReturnType known seen).1 = if known = unknownType then seen else known := by
  unfold adoptReturnType
  by_cases hknown : known = unknownType
  · by_cases hseen : seen = unknownType <;> simp [hknown, hseen]
  · simp [hknown]

theorem adoptNames_name (known seen : Signature) :
    (adoptNames known seen).1.name = if known.name = "" then seen.name else known.name := by
  unfold adoptNames Signature.isNamed
  by_cases hknown : known.name = ""
  · by_cases hseen : seen.name = "" <;> simp [hknown, hseen]
  · simp [hknown]

theorem adoptMangledName_eq_or (known seen : String) :
    (adoptMangledName known seen).1 = known ∨ (adoptMangledName known seen).1 = seen := by
  unfold adoptMangledName
  split
  · exact Or.inr rfl
  · exact Or.inl rfl

theorem adoptNames_mangledName (known seen : Signature) :
    (adoptNames known seen).1.mangledName = known.mangledName ∨
      (adoptNames known seen).1.mangledName = seen.mangledName := by
  simp only [adoptNames]
  split
  · exact Or.inl rfl
  · split <;> exact adoptMangledName_eq_or known.mangledName seen.mangledName

/-- The signatures that an observation tells: a slot without a body tells none. -/
def Observation.told (o : Observation) : List Signature :=
  if o.isPureVirtual then [] else [o.toSignature]

namespace Gathers
variable {told : List Signature} {known : Signature}

theorem nil : Gathers [] Signature.unknown where
  name := GathersText.nil
  mangledName h := absurd rfl h
  returnType := GathersText.nil
  parameters := GathersParams.nil

theorem singleton (s : Signature) : Gathers [s] s where
  name := GathersText.singleton s.name
  mangledName _ := by simp
  returnType := GathersText.singleton s.returnType
  parameters := GathersParams.nil.append_of_isUnknown rfl s.parameters

theorem congr {told' : List Signature} (hmem : ∀ s, s ∈ told ↔ s ∈ told')
    (h : Gathers told known) : Gathers told' known where
  name := h.name.congr fun _ => by simp only [List.mem_map, hmem]
  mangledName := by simpa only [List.mem_map, hmem] using h.mangledName
  returnType := h.returnType.congr fun _ => by simp only [List.mem_map, hmem]
  parameters := h.parameters.congr fun _ => by simp only [List.mem_map, hmem]

/-- What a class tells about a slot that it declares. -/
theorem ofObservation (o : Observation) : Gathers o.told o.signature := by
  unfold Observation.told Observation.signature
  split
  · exact Gathers.nil
  · exact Gathers.singleton o.toSignature

/-- Enrichment gathers what the observation tells. -/
theorem enrich {p : Prototype} (h : Gathers told p.toSignature) (o : Observation)
    (className : String) (slotIndex : Nat) :
    Gathers (told ++ o.told) (p.enrich o className slotIndex).prototype.toSignature := by
  unfold Prototype.enrich Observation.told
  split
  · rwa [List.append_nil]
  · have hname := h.name.append o.name
    have hreturn := h.returnType.append o.returnType
    have hparams := h.parameters.append o.parameters
    rw [← adoptNames_name p.toSignature o.toSignature] at hname
    rw [← adoptReturnType_eq] at hreturn
    refine {
      name := by simpa using hname
      mangledName := fun hne => ?_
      returnType := by simpa using hreturn
      parameters := by simpa using hparams }
    rw [List.map_append, List.mem_append]
    rcases adoptNames_mangledName p.toSignature o.toSignature with heq | heq
    · rw [heq] at hne ⊢
      exact Or.inl (h.mangledName hne)
    · rw [heq]
      exact Or.inr (by simp)

end Gathers

end VtableMerge
