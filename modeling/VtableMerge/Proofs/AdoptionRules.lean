import VtableMerge.Proofs.Gathering

/-!
What the rules of enrichment have in common. Each takes what was seen into what is known and raises
a flag. The flag is right, and what was seen has nothing to add a second time. A name or a list
that was taken over is in no conflict any more.
-/
namespace VtableMerge

/-- A rule that takes what was seen into what is known. Its flag tells whether anything changed,
and what was seen has nothing to add a second time. -/
structure Adopting {α : Type} (rule : α → α → α × Bool) : Prop where
  flag_iff : ∀ known seen, (rule known seen).2 = true ↔ (rule known seen).1 ≠ known
  again : ∀ known seen, rule (rule known seen).1 seen = ((rule known seen).1, false)

theorem Adopting.eq_of_flag {α : Type} {rule : α → α → α × Bool} (h : Adopting rule)
    {known seen : α} (hflag : (rule known seen).2 = false) : (rule known seen).1 = known := by
  refine Classical.byContradiction fun hne => ?_
  rw [(h.flag_iff known seen).mpr hne] at hflag
  cases hflag

section Texts

def adoptText (blank known seen : String) : String × Bool :=
  if known = blank ∧ seen ≠ blank then (seen, true) else (known, false)

theorem adoptReturnType_eq_adoptText : adoptReturnType = adoptText unknownType := by
  funext known seen
  unfold adoptReturnType adoptText
  by_cases hknown : known = unknownType <;> by_cases hseen : seen = unknownType <;>
    simp [hknown, hseen]

theorem adoptMangledName_eq_adoptText : adoptMangledName = adoptText "" := by
  funext known seen
  unfold adoptMangledName adoptText
  by_cases hknown : known = "" <;> by_cases hseen : seen = "" <;> simp [hknown, hseen]

theorem adopting_text (blank : String) : Adopting (adoptText blank) where
  flag_iff known seen := by
    unfold adoptText
    split
    · next htake => exact iff_of_true rfl fun heq : seen = known => htake.2 (heq.trans htake.1)
    · simp
  again known seen := by
    by_cases htake : known = blank ∧ seen ≠ blank
    · have htaken : ¬ (seen = blank ∧ seen ≠ blank) := fun hagain => hagain.2 hagain.1
      simp only [adoptText, if_pos htake, if_neg htaken]
    · simp only [adoptText, if_neg htake]

theorem adopting_returnType : Adopting adoptReturnType :=
  adoptReturnType_eq_adoptText ▸ adopting_text unknownType

theorem adopting_mangledName : Adopting adoptMangledName :=
  adoptMangledName_eq_adoptText ▸ adopting_text ""

end Texts

section Names
variable {known seen : Signature}

theorem adoptNames_of_named (hnamed : known.isNamed = true) (seen : Signature) :
    adoptNames known seen = (known, false) := by rw [adoptNames, if_pos hnamed]

theorem adoptNames_of_seen (hnamed : known.isNamed = false) (hseen : seen.isNamed = true) :
    adoptNames known seen = ({ known with
      name := seen.name
      mangledName := (adoptMangledName known.mangledName seen.mangledName).1 }, true) := by
  rw [adoptNames, hnamed, hseen]
  rfl

theorem adoptNames_of_nameless (hnamed : known.isNamed = false) (hseen : seen.isNamed = false) :
    adoptNames known seen =
      ({ known with mangledName := (adoptMangledName known.mangledName seen.mangledName).1 },
        (adoptMangledName known.mangledName seen.mangledName).2) := by
  rw [adoptNames, hnamed, hseen]
  rfl

/-- Names are taken without a look at the types. -/
theorem adoptNames_with_types (known seen : Signature) (returnType : String)
    (parameters : Params) : adoptNames { known with returnType, parameters } seen =
      ({ (adoptNames known seen).1 with returnType, parameters }, (adoptNames known seen).2) := by
  cases hnamed : known.isNamed with
  | true =>
    rw [adoptNames_of_named hnamed]
    exact adoptNames_of_named (by exact hnamed) seen
  | false =>
    cases hseen : seen.isNamed with
    | true =>
      rw [adoptNames_of_seen hnamed hseen]
      exact adoptNames_of_seen (by exact hnamed) hseen
    | false =>
      rw [adoptNames_of_nameless hnamed hseen]
      exact adoptNames_of_nameless (by exact hnamed) hseen

theorem adopting_names : Adopting adoptNames where
  flag_iff known seen := by
    cases hnamed : known.isNamed with
    | true => simp [adoptNames_of_named hnamed]
    | false =>
      cases hseen : seen.isNamed with
      | true =>
        rw [adoptNames_of_seen hnamed hseen]
        refine iff_of_true rfl fun heq => ?_
        have hname := congrArg Signature.isNamed heq
        exact absurd (hseen.symm.trans (hname.trans hnamed)) (by simp)
      | false =>
        rw [adoptNames_of_nameless hnamed hseen, adopting_mangledName.flag_iff]
        refine not_congr ⟨fun heq => by rw [heq], fun heq => congrArg Signature.mangledName heq⟩
  again known seen := by
    cases hnamed : known.isNamed with
    | true => simp only [adoptNames_of_named hnamed]
    | false =>
      cases hseen : seen.isNamed with
      | true =>
        rw [adoptNames_of_seen hnamed hseen]
        exact adoptNames_of_named (by exact hseen) seen
      | false =>
        rw [adoptNames_of_nameless hnamed hseen]
        have hagain := adopting_mangledName.again known.mangledName seen.mangledName
        refine (adoptNames_of_nameless (by exact hnamed) hseen).trans ?_
        simp only [hagain]

end Names

section Parameters
variable {known seen : Params}

theorem adoptParameters_of_isUnknown (hknown : known.isUnknown = true) (seen : Params) :
    adoptParameters known seen = (seen, known != seen) := by rw [adoptParameters, if_pos hknown]

theorem adoptParameters_of_placeholder (hknown : known.isUnknown = false)
    (hseen : seen.isUnknown = true) : adoptParameters known seen = (known, false) := by
  rw [adoptParameters, if_neg (by simp [hknown]), if_pos hseen]

theorem adoptParameters_of_nil (hseen : seen.isUnknown = false) (hne : seen ≠ []) :
    adoptParameters [] seen = (seen, true) := by
  have hlength : (([] : Params).length != seen.length) = true := by
    simpa using (Nat.ne_of_gt (List.length_pos_iff.mpr hne)).symm
  rw [adoptParameters, if_neg (by simp [Params.isUnknown]), if_neg (by simp [hseen]),
    if_pos hlength]
  rfl

theorem adoptParameters_of_length_ne (hknown : known.isUnknown = false)
    (hseen : seen.isUnknown = false) (hlength : known.length ≠ seen.length) (hne : known ≠ []) :
    adoptParameters known seen = (known, false) := by
  rw [adoptParameters, if_neg (by simp [hknown]), if_neg (by simp [hseen]),
    if_pos (by simpa using hlength), if_neg (by simpa using hne)]

theorem adoptParameters_of_length_eq (hknown : known.isUnknown = false)
    (hseen : seen.isUnknown = false) (hlength : known.length = seen.length) :
    adoptParameters known seen = fillTypes known seen := by
  rw [adoptParameters, if_neg (by simp [hknown]), if_neg (by simp [hseen]),
    if_neg (by simpa using hlength)]

theorem fillTypes_self (ps : Params) : fillTypes ps ps = (ps, false) := by
  induction ps with
  | nil => rfl
  | cons p ps ih => simp [fillTypes, ih]

theorem adoptParameters_self (ps : Params) : adoptParameters ps ps = (ps, false) := by
  cases hps : ps.isUnknown with
  | true => simp [adoptParameters_of_isUnknown hps]
  | false => rw [adoptParameters_of_length_eq hps hps rfl, fillTypes_self]

theorem adopting_fillTypes : Adopting fillTypes where
  flag_iff ps qs := by
    induction ps generalizing qs with
    | nil => simp [fillTypes]
    | cons p ps ih =>
      cases qs with
      | nil => simp [fillTypes]
      | cons q qs =>
        simp only [fillTypes]
        split
        · next hfill =>
          refine iff_of_true rfl fun heq => ?_
          have hunknown := congrArg Param.isUnknown (List.cons.inj heq).1
          have hsame : q.isUnknown = p.isUnknown := hunknown
          simp [hsame] at hfill
        · simpa using ih qs
  again ps qs := by
    induction ps generalizing qs with
    | nil => simp [fillTypes]
    | cons p ps ih =>
      cases qs with
      | nil => simp [fillTypes]
      | cons q qs =>
        simp only [fillTypes]
        split
        · next hfill =>
          have hfilled : ¬ ((Param.mk q.type p.name).isUnknown && !q.isUnknown) = true := by
            simp [Param.isUnknown]
          simp only [fillTypes, if_neg hfilled, ih]
        · next hkept => simp only [fillTypes, if_neg hkept, ih]

/-- The list that was seen replaces the known one, or the known one stays, or both tell of as many
parameters and the known one is filled. -/
theorem adoptParameters_cases (known seen : Params) :
    adoptParameters known seen = (seen, known != seen) ∨
      adoptParameters known seen = (known, false) ∨
      known.isUnknown = false ∧ seen.isUnknown = false ∧ known.length = seen.length ∧
        adoptParameters known seen = fillTypes known seen := by
  cases hknown : known.isUnknown with
  | true => exact Or.inl (adoptParameters_of_isUnknown hknown seen)
  | false =>
    cases hseen : seen.isUnknown with
    | true => exact Or.inr (Or.inl (adoptParameters_of_placeholder hknown hseen))
    | false =>
      by_cases hlength : known.length = seen.length
      · have hfill := adoptParameters_of_length_eq hknown hseen hlength
        exact Or.inr (Or.inr ⟨rfl, rfl, hlength, hfill⟩)
      · by_cases hnil : known = []
        · subst hnil
          have hne : seen ≠ [] := fun hno => hlength (by rw [hno])
          have hdiffer : (([] : Params) != seen) = true := by simpa using hne.symm
          rw [hdiffer]
          exact Or.inl (adoptParameters_of_nil hseen hne)
        · exact Or.inr (Or.inl (adoptParameters_of_length_ne hknown hseen hlength hnil))

theorem adopting_parameters : Adopting adoptParameters where
  flag_iff known seen := by
    rcases adoptParameters_cases known seen with h | h | ⟨-, -, -, h⟩ <;> rw [h]
    · exact bne_iff_ne.trans ne_comm
    · simp
    · exact adopting_fillTypes.flag_iff known seen
  again known seen := by
    rcases adoptParameters_cases known seen with h | h | ⟨hknown, hseen, hlength, h⟩
    · rw [h, adoptParameters_self]
    · rw [h, h]
    · have hfilled := @fillTypes_isUnknown known seen hlength hknown
      have hsame := (fillTypes_length known seen).trans hlength
      rw [h, adoptParameters_of_length_eq hfilled hseen hsame, adopting_fillTypes.again]

end Parameters

section Conflicts

/-- A name that was taken over agrees, and a name that disagrees is not taken over. -/
theorem namesConflict_adoptNames (known seen : Signature) :
    namesConflict (adoptNames known seen).1.name seen.name =
      namesConflict known.name seen.name := by
  rw [adoptNames_name]
  by_cases hblank : known.name = ""
  · rw [if_pos hblank, hblank]
    simp [namesConflict]
  · rw [if_neg hblank]

theorem isNamed_of_namesConflict {known seen : Signature}
    (hconflict : namesConflict known.name seen.name = true) : known.isNamed = true := by
  simp only [namesConflict, Bool.and_eq_true] at hconflict
  exact hconflict.1.1.1.1

/-- A conflict of parameter counts stands unless the list that was seen was taken over. -/
theorem countsConflict_adoptParameters (known seen : Params) :
    countsConflict (adoptParameters known seen).1 seen =
      (countsConflict known seen && !(adoptParameters known seen).2) := by
  rcases adoptParameters_cases known seen with h | h | ⟨-, -, hlength, h⟩ <;> rw [h]
  · by_cases heq : known = seen
    · simp [heq, countsConflict]
    · have hdiffer : (known != seen) = true := bne_iff_ne.mpr heq
      simp [hdiffer, countsConflict]
  · simp
  · simp [countsConflict, fillTypes_length, hlength]

end Conflicts

end VtableMerge
