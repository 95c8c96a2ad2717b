import VtableMerge.Proofs.Gathering
import VtableMerge.Proofs.Layout
import VtableMerge.Proofs.Settling

/-!
A merge only adds. What a prototype knows it keeps, the table and the findings grow at their ends,
and what became of a class stays. Extension is shown level by level: parameters, prototypes, the
table and the whole state, where one step extends the state and so does every run. None of this
depends on the numbers of the prototypes: whichever prototype a number leads to is enriched.
-/
namespace VtableMerge

structure Params.Extends (known later : Params) : Prop where
  /-- What is known stays known. -/
  isUnknown_eq_false : known.isUnknown = false → later.isUnknown = false
  /-- A list that tells something keeps its length and the names of its parameters. -/
  names_eq : known ≠ [] → known.isUnknown = false →
    later.map Param.name = known.map Param.name
  typeAt?_eq : ∀ j type, known.typeAt? j = some type → type ≠ unknownType →
    later.typeAt? j = some type

structure Prototype.Extends (known later : Prototype) : Prop where
  origin_eq : later.origin = known.origin
  name_eq : known.name ≠ "" → later.name = known.name
  mangledName_eq : known.mangledName ≠ "" → later.mangledName = known.mangledName
  returnType_eq : known.returnType ≠ unknownType → later.returnType = known.returnType
  parameters : known.parameters.Extends later.parameters

def PrototypeTable.Extends (table later : PrototypeTable) : Prop :=
  ∀ (k : Nat) (p : Prototype), table.prototypes[k]? = some p →
    ∃ q, later.prototypes[k]? = some q ∧ p.Extends q

namespace Params
variable {known seen later : Params}

theorem Extends.refl (params : Params) : params.Extends params :=
  ⟨id, fun _ _ => rfl, fun _ _ htype _ => htype⟩

theorem Extends.trans (h : known.Extends seen) (h' : seen.Extends later) : known.Extends later where
  isUnknown_eq_false hknown := h'.isUnknown_eq_false (h.isUnknown_eq_false hknown)
  names_eq hne hknown := by
    have hnames := h.names_eq hne hknown
    have hne' : seen ≠ [] := by
      rintro rfl
      exact hne (List.map_eq_nil_iff.mp hnames.symm)
    exact (h'.names_eq hne' (h.isUnknown_eq_false hknown)).trans hnames
  typeAt?_eq j type htype hne := h'.typeAt?_eq j type (h.typeAt?_eq j type htype hne) hne

/-- A placeholder knows no type, so any list extends it. -/
theorem extends_of_isUnknown (hknown : known.isUnknown = true) (later : Params) :
    known.Extends later where
  isUnknown_eq_false hno := by
    rw [hknown] at hno
    cases hno
  names_eq _ hno := by
    rw [hknown] at hno
    cases hno
  typeAt?_eq j type htype hne := by
    rw [typeAt?_of_isUnknown hknown (lt_length_of_typeAt? htype), Option.some.injEq] at htype
    exact absurd htype.symm hne

theorem extends_of_nil (hlater : later.isUnknown = false) : Params.Extends [] later where
  isUnknown_eq_false _ := hlater
  names_eq hne := absurd rfl hne
  typeAt?_eq j type htype := by cases htype

theorem fillTypes_names (ps qs : Params) :
    (fillTypes ps qs).1.map Param.name = ps.map Param.name := by
  induction ps generalizing qs with
  | nil => simp [fillTypes]
  | cons p ps ih =>
    cases qs with
    | nil => simp [fillTypes]
    | cons q qs =>
      simp only [fillTypes]
      split <;> simp [ih]

theorem extends_fillTypes (hknown : known.isUnknown = false)
    (hlength : known.length = seen.length) :
    known.Extends (fillTypes known seen).1 where
  isUnknown_eq_false _ := fillTypes_isUnknown hlength hknown
  names_eq _ _ := fillTypes_names known seen
  typeAt?_eq j type htype hne := by
    obtain ⟨other, hother⟩ := exists_typeAt? (hlength ▸ lt_length_of_typeAt? htype)
    rw [fillTypes_typeAt? hlength htype hother, if_neg hne]

theorem extends_adoptParameters (known seen : Params) :
    known.Extends (adoptParameters known seen).1 := by
  unfold adoptParameters
  split
  · next hknown => exact extends_of_isUnknown hknown seen
  · next hknown =>
    have hknown : known.isUnknown = false := by simpa using hknown
    split
    · exact Extends.refl known
    · next hseen =>
      split
      · split
        · next hnil =>
          obtain rfl := List.isEmpty_iff.mp hnil
          exact extends_of_nil (by simpa using hseen)
        · exact Extends.refl known
      · next hlength => exact extends_fillTypes hknown (by simpa using hlength)

end Params

section Prototypes
variable {p q r : Prototype}

theorem Prototype.Extends.refl (p : Prototype) : p.Extends p :=
  ⟨rfl, fun _ => rfl, fun _ => rfl, fun _ => rfl, Params.Extends.refl _⟩

theorem Prototype.Extends.trans (h : p.Extends q) (h' : q.Extends r) : p.Extends r where
  origin_eq := h'.origin_eq.trans h.origin_eq
  name_eq hne := by
    have hname := h.name_eq hne
    exact (h'.name_eq (hname ▸ hne)).trans hname
  mangledName_eq hne := by
    have hname := h.mangledName_eq hne
    exact (h'.mangledName_eq (hname ▸ hne)).trans hname
  returnType_eq hne := by
    have htype := h.returnType_eq hne
    exact (h'.returnType_eq (htype ▸ hne)).trans htype
  parameters := h.parameters.trans h'.parameters

theorem adoptMangledName_of_ne_empty {known : String} (hne : known ≠ "") (seen : String) :
    (adoptMangledName known seen).1 = known := by
  simp [adoptMangledName, hne]

theorem adoptNames_mangledName_of_ne_empty {known : Signature} (hne : known.mangledName ≠ "")
    (seen : Signature) : (adoptNames known seen).1.mangledName = known.mangledName := by
  simp only [adoptNames]
  split
  · rfl
  · split <;> exact adoptMangledName_of_ne_empty hne seen.mangledName

/-- Enrichment adds to a prototype. -/
theorem Prototype.extends_enrich (p : Prototype) (o : Observation) (className : String)
    (slotIndex : Nat) : p.Extends (p.enrich o className slotIndex).prototype := by
  have horigin := p.enrich_origin o className slotIndex
  unfold enrich at horigin ⊢
  split
  · exact Extends.refl p
  · next hbody =>
    rw [if_neg hbody] at horigin
    refine {
      origin_eq := horigin
      name_eq := fun hne => (adoptNames_name p.toSignature o.toSignature).trans (if_neg hne)
      mangledName_eq := fun hne => adoptNames_mangledName_of_ne_empty hne o.toSignature
      returnType_eq := fun hne => (adoptReturnType_eq p.returnType o.returnType).trans (if_neg hne)
      parameters := Params.extends_adoptParameters p.parameters o.parameters }

end Prototypes

namespace PrototypeTable
variable {table middle later : PrototypeTable}

theorem Extends.refl (table : PrototypeTable) : table.Extends table :=
  fun _ p hp => ⟨p, hp, Prototype.Extends.refl p⟩

theorem Extends.trans (h : table.Extends middle) (h' : middle.Extends later) :
    table.Extends later := by
  intro k p hp
  obtain ⟨q, hq, hpq⟩ := h k p hp
  obtain ⟨r, hr, hqr⟩ := h' k q hq
  exact ⟨r, hr, hpq.trans hqr⟩

theorem extends_create (table : PrototypeTable) (className : String) (slotIndex : Nat)
    (signature : Signature) : table.Extends (table.create className slotIndex signature).1 := by
  intro k p hp
  have hlt := (List.getElem?_eq_some_iff.mp hp).1
  exact ⟨p, (List.getElem?_append_left hlt).trans hp, Prototype.Extends.refl p⟩

end PrototypeTable

namespace Merge

section Laying
variable (className : String)

theorem extends_enrichInherited (slotIndex : Nat) (id : ProtoId) (o : Observation)
    (table : PrototypeTable) :
    table.Extends (enrichInherited className slotIndex id o table).1 := by
  intro k p hp
  rw [enrichInherited_getElem?]
  split
  · exact ⟨_, by rw [hp, Option.map_some], p.extends_enrich o className slotIndex⟩
  · exact ⟨p, hp, Prototype.Extends.refl p⟩

/-- Laying slots enriches prototypes and appends new ones. -/
theorem extends_layFrom (slotIndex : Nat) (table : PrototypeTable) (ids : List ProtoId)
    (observed : List Observation) :
    table.Extends (layFrom className slotIndex table ids observed).table := by
  induction observed generalizing slotIndex table ids with
  | nil =>
    rw [layFrom]
    exact PrototypeTable.Extends.refl table
  | cons o os ih =>
    cases ids with
    | nil => exact (table.extends_create className slotIndex o.signature).trans (ih _ _ _)
    | cons id ids =>
      exact (extends_enrichInherited className slotIndex id o table).trans (ih _ _ _)

end Laying

/-- A later state has every outcome, finding and prototype of an earlier one. -/
structure State.Extends (s t : State) : Prop where
  outcome?_eq : ∀ name o, s.outcome? name = some o → t.outcome? name = some o
  diagnostics : s.diagnostics <+: t.diagnostics
  table : s.table.Extends t.table

theorem State.Extends.refl (s : State) : s.Extends s :=
  ⟨fun _ _ ho => ho, List.prefix_refl _, PrototypeTable.Extends.refl _⟩

theorem State.Extends.trans {s t u : State} (h : s.Extends t) (h' : t.Extends u) :
    s.Extends u where
  outcome?_eq name o ho := h'.outcome?_eq name o (h.outcome?_eq name o ho)
  diagnostics := h.diagnostics.trans h'.diagnostics
  table := h.table.trans h'.table

section Runs
variable {h : Hierarchy} {store : ObservationStore} {s t : State} {c : ClassNode}

/-- Everything that a step finds is about the class that it settles. -/
theorem exists_settle_findings (s : State) (c : ClassNode) :
    ∃ found, (settle h store s c).diagnostics = s.diagnostics ++ found ∧
      ∀ d ∈ found, d.className = c.name := by
  rcases settle_cases h store s c with
    ⟨o, found, hclass, hstep⟩ | ⟨ids, observed, found, hclass, hstep⟩
  · exact ⟨found, by rw [hstep]; rfl, hclass⟩
  · refine ⟨found ++ (layFrom c.name 0 s.table ids observed).conflicts, by rw [hstep]; rfl, ?_⟩
    intro d hd
    rcases List.mem_append.mp hd with hd | hd
    · exact hclass d hd
    · exact (of_mem_layFrom_conflicts c.name hd).1

theorem extends_settle_table (s : State) (c : ClassNode) :
    s.table.Extends (settle h store s c).table := by
  rcases settle_cases h store s c with ⟨o, found, -, hstep⟩ | ⟨ids, observed, found, -, hstep⟩
  · rw [hstep]
    exact PrototypeTable.Extends.refl s.table
  · rw [hstep]
    exact extends_layFrom c.name 0 s.table ids observed

/-- Settling a class that is ready extends the state. -/
theorem extends_settle (hc : Ready h store s c) : s.Extends (settle h store s c) where
  outcome?_eq _ _ ho := (Leads.refl.settle hc).outcome?_eq ho
  diagnostics := by
    obtain ⟨found, hfound, -⟩ := @exists_settle_findings h store s c
    exact ⟨found, hfound.symm⟩
  table := extends_settle_table s c

theorem extends_of_leads (hst : Leads h store s t) : s.Extends t := by
  induction hst with
  | refl => exact State.Extends.refl s
  | settle _ hc ih => exact ih.trans (extends_settle hc)

/-- Whatever a run finds is about a class that it settles. -/
theorem settled_of_new_finding (hst : Leads h store s t) {d : Diagnostic}
    (hd : d ∈ t.diagnostics) (hnew : d ∉ s.diagnostics) :
    s.outcome? d.className = none ∧ (t.outcome? d.className).isSome = true := by
  induction hst with
  | refl => exact absurd hd hnew
  | @settle t c ht hc ih =>
    obtain ⟨found, hfound, hclass⟩ := @exists_settle_findings h store t c
    rw [hfound] at hd
    rcases List.mem_append.mp hd with hd | hd
    · obtain ⟨hbefore, hafter⟩ := ih hd
      obtain ⟨o, ho⟩ := Option.isSome_iff_exists.mp hafter
      rw [(extends_settle hc).outcome?_eq _ o ho]
      exact ⟨hbefore, rfl⟩
    · rw [hclass d hd]
      refine ⟨Option.eq_none_iff_forall_ne_some.mpr fun o ho => ?_,
        settle_outcome?_self h store t c⟩
      have hsettled := ht.outcome?_eq ho
      rw [hc.fresh] at hsettled
      cases hsettled

/-- Resolving a name settles the class of that name and classes above it only. -/
theorem exists_climb_of_settled_by_resolve {name other : String} (hbefore : s.outcome? other = none)
    (hafter : (resolve h store s name).outcome? other ≠ none) :
    ∃ n, h.climb n name = some other ∧ h.contains other = true := by
  by_contra hnot
  refine hafter ((foldl_settle_outcome? fun c hc heq => hnot ?_).trans hbefore)
  have hmem := List.mem_reverse.mp hc
  obtain ⟨n, hclimb⟩ := exists_climb_of_mem_unsettled hmem
  exact ⟨n, heq ▸ hclimb, heq ▸ h.contains_iff_exists.mpr ⟨c, get?_of_mem_unsettled hmem⟩⟩

theorem resolve_eq_self {name : String}
    (hdone : (s.outcome? name).isSome = true ∨ h.get? name = none) :
    resolve h store s name = s := by
  rw [resolve, unsettled_eq_nil hdone]
  rfl

end Runs

/-- Resolving a name only adds, whatever state it starts from: every outcome, finding and
prototype is still there, at its place and with everything it knew. Only the class of that name
and classes above it are settled, and a name that is settled already or that the hierarchy does
not have changes nothing. -/
theorem extends_resolve (h : Hierarchy) (store : ObservationStore) (s : State) (name : String) :
    s.Extends (resolve h store s name) ∧
    (∀ other, s.outcome? other = none → (resolve h store s name).outcome? other ≠ none →
      ∃ n, h.climb n name = some other ∧ h.contains other = true) ∧
    ((s.outcome? name).isSome = true ∨ h.get? name = none → resolve h store s name = s) :=
  ⟨extends_of_leads (leads_resolve s name),
    fun _ hbefore hafter => exists_climb_of_settled_by_resolve hbefore hafter, resolve_eq_self⟩

end Merge

end VtableMerge
