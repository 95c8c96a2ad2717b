import VtableMerge.Proofs.Adoptions
import VtableMerge.Proofs.Precedence

/-!
Observations that tell nothing about the parameters. They leave the parameters of a prototype as
they are, with one exception. A placeholder is known by its type alone, so one that carries a
recovered name still gives way to whatever is seen next, and the name is lost to a placeholder
without one.
-/
namespace VtableMerge

def Params.IsNamedPlaceholder (params : Params) : Prop :=
  params.isUnknown = true ∧ params ≠ Params.unknown

instance (params : Params) : Decidable params.IsNamedPlaceholder :=
  inferInstanceAs (Decidable (_ ∧ _))

def Prototype.adoptions (p : Prototype) : List Sighting → List Adopted
  | [] => []
  | s :: rest =>
    let e := p.enrich s.observation s.className s.slotIndex
    e.adopted :: e.prototype.adoptions rest

theorem Params.type_of_isUnknown {params : Params} (h : params.isUnknown = true) :
    params.map Param.type = [unknownType] := by
  obtain ⟨p, rfl⟩ := List.length_eq_one_iff.mp (length_eq_one_of_isUnknown h)
  have htype : p.type = unknownType := by simpa [isUnknown, Param.isUnknown] using h
  rw [List.map_singleton, htype]

theorem adoptParameters_unknown {known : Params} (hplain : ¬ known.IsNamedPlaceholder) :
    adoptParameters known Params.unknown = (known, false) := by
  cases hknown : known.isUnknown with
  | true =>
    obtain rfl : known = Params.unknown := by
      by_contra hne
      exact hplain ⟨hknown, hne⟩
    exact adoptParameters_self Params.unknown
  | false => exact adoptParameters_of_placeholder hknown rfl

section Enriching
variable {p : Prototype} {o : Observation} (className : String) (slotIndex : Nat)
  (huntold : o.parameters = Params.unknown)
include huntold

theorem enrich_untold (hplain : o.isPureVirtual = false → ¬ p.parameters.IsNamedPlaceholder) :
    (p.enrich o className slotIndex).prototype.parameters = p.parameters ∧
      (p.enrich o className slotIndex).adopted.parameters = false := by
  cases hbody : o.isPureVirtual with
  | true =>
    rw [p.enrich_of_pureVirtual className slotIndex hbody]
    exact ⟨rfl, rfl⟩
  | false =>
    have hkept := adoptParameters_unknown (hplain hbody)
    rw [← huntold] at hkept
    rw [p.enrich_of_body className slotIndex hbody]
    simp only [hkept, and_self]

/-- The name of a placeholder does not keep it. -/
theorem enrich_untold_of_named (hbody : o.isPureVirtual = false)
    (hnamed : p.parameters.IsNamedPlaceholder) :
    (p.enrich o className slotIndex).prototype.parameters = Params.unknown ∧
      (p.enrich o className slotIndex).adopted.parameters = true := by
  obtain ⟨hplaceholder, hne⟩ := hnamed
  have htaken := adoptParameters_of_isUnknown hplaceholder o.parameters
  rw [huntold, bne_iff_ne.mpr hne] at htaken
  rw [p.enrich_of_body className slotIndex hbody]
  simp only [huntold, htaken, and_self]

end Enriching

/-- A placeholder with a name meets an observation with a body. -/
def Prototype.LosesName (p : Prototype) (sightings : List Sighting) : Prop :=
  p.parameters.IsNamedPlaceholder ∧ ∃ s ∈ sightings, s.observation.isPureVirtual = false

instance (p : Prototype) (sightings : List Sighting) : Decidable (p.LosesName sightings) :=
  inferInstanceAs (Decidable (_ ∧ _))

section Run
variable {p : Prototype} {sightings : List Sighting}
  (huntold : ∀ s ∈ sightings, s.observation.parameters = Params.unknown)
include huntold

theorem enrichAll_untold (hkept : ¬ p.LosesName sightings) :
    (p.enrichAll sightings).parameters = p.parameters ∧
      ∀ a ∈ p.adoptions sightings, a.parameters = false := by
  induction sightings generalizing p with
  | nil => exact ⟨rfl, by simp [Prototype.adoptions]⟩
  | cons s rest ih =>
    obtain ⟨hs, hrest⟩ := List.forall_mem_cons.mp huntold
    have hstep := enrich_untold (p := p) s.className s.slotIndex hs fun hbody hnamed =>
      hkept ⟨hnamed, s, List.mem_cons_self, hbody⟩
    have hlater : ¬ (p.enrich s.observation s.className s.slotIndex).prototype.LosesName rest := by
      rintro ⟨hnamed, t, ht, hbody⟩
      rw [hstep.1] at hnamed
      exact hkept ⟨hnamed, t, List.mem_cons_of_mem s ht, hbody⟩
    obtain ⟨hall, hflags⟩ := ih hrest hlater
    exact ⟨hall.trans hstep.1, List.forall_mem_cons.mpr ⟨hstep.2, hflags⟩⟩

/-- The first observation with a body takes the name, and the rest finds a plain placeholder. -/
theorem enrichAll_untold_of_losesName (hlost : p.LosesName sightings) :
    (p.enrichAll sightings).parameters = Params.unknown ∧
      ∃ a ∈ p.adoptions sightings, a.parameters = true := by
  obtain ⟨hnamed, t, ht, hbody⟩ := hlost
  induction sightings generalizing p with
  | nil => cases ht
  | cons s rest ih =>
    obtain ⟨hs, hrest⟩ := List.forall_mem_cons.mp huntold
    cases hfirst : s.observation.isPureVirtual with
    | false =>
      have hstep := enrich_untold_of_named s.className s.slotIndex hs hfirst hnamed
      have hplain : ¬ (p.enrich s.observation s.className s.slotIndex).prototype.LosesName rest :=
        fun hagain => hagain.1.2 hstep.1
      exact ⟨(enrichAll_untold hrest hplain).1.trans hstep.1, _, List.mem_cons_self, hstep.2⟩
    | true =>
      have hsame := p.enrich_of_pureVirtual s.className s.slotIndex hfirst
      have hlater : t ∈ rest := by
        rcases List.mem_cons.mp ht with rfl | hlater
        · rw [hfirst] at hbody
          cases hbody
        · exact hlater
      obtain ⟨hall, a, ha, hflag⟩ := ih hrest hnamed hlater
      rw [Prototype.enrichAll, List.foldl_cons, Prototype.adoptions, hsame]
      exact ⟨hall, a, List.mem_cons_of_mem _ ha, hflag⟩

end Run

/-- Observations that tell nothing about the parameters change no parameters and report no such
change, unless the parameters are a placeholder with a name and some observation has a body. Then
there is a plain placeholder in the end. The types stay in any case. -/
theorem parameters_enrichAll_of_untold (p : Prototype) (sightings : List Sighting)
    (huntold : ∀ s ∈ sightings, s.observation.parameters = Params.unknown) :
    (¬ p.LosesName sightings → (p.enrichAll sightings).parameters = p.parameters ∧
        ∀ a ∈ p.adoptions sightings, a.parameters = false) ∧
      (p.LosesName sightings → (p.enrichAll sightings).parameters = Params.unknown ∧
        ∃ a ∈ p.adoptions sightings, a.parameters = true) ∧
      (p.enrichAll sightings).parameters.map Param.type = p.parameters.map Param.type := by
  refine ⟨enrichAll_untold huntold, enrichAll_untold_of_losesName huntold, ?_⟩
  by_cases hlost : p.LosesName sightings
  · rw [(enrichAll_untold_of_losesName huntold hlost).1, Params.type_of_isUnknown hlost.1.1]
    rfl
  · rw [(enrichAll_untold huntold hlost).1]

/-- A recovered name stays, and so does a type that the others do not know. -/
theorem parameters_enrichAll_of_untold_sample :
    let p : Prototype :=
      ⟨⟨"read", "", "int", [Param.named unknownType "len", Param.ofType "char"]⟩, ⟨0⟩, 3, "Device"⟩
    let sightings : List Sighting :=
      [⟨Observation.concrete 3 "load", "Disk", 3⟩, ⟨Observation.pureVirtual 3, "Tape", 3⟩]
    (∀ s ∈ sightings, s.observation.parameters = Params.unknown) ∧ ¬ p.LosesName sightings ∧
      (p.enrichAll sightings).parameters = p.parameters ∧
      ∀ a ∈ p.adoptions sightings, a.parameters = false := by
  intro p sightings
  have huntold : ∀ s ∈ sightings, s.observation.parameters = Params.unknown := by decide
  have hkept : ¬ p.LosesName sightings := by decide
  exact ⟨huntold, hkept, (parameters_enrichAll_of_untold p sightings huntold).1 hkept⟩

/-- A placeholder that tells nothing takes the name of another one away. -/
theorem placeholder_takes_name :
    let p : Prototype := ⟨⟨"read", "", "int", [Param.named unknownType "len"]⟩, ⟨0⟩, 0, "Device"⟩
    let s : Sighting := ⟨Observation.concrete 0 "read", "Disk", 0⟩
    s.observation.parameters = Params.unknown ∧
      (p.enrichAll [s]).parameters = [Param.ofType unknownType] ∧
      (p.enrichAll [s]).parameters ≠ p.parameters ∧
      (p.adoptions [s]).map Adopted.parameters = [true] := by
  decide

end VtableMerge
